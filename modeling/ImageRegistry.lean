import ImageRegistry.Ascending
import ImageRegistry.Collection.Collector
import ImageRegistry.Collection.MarkSet
import ImageRegistry.Collection.Marking
import ImageRegistry.Collection.Removal
import ImageRegistry.CommandLine.Command
import ImageRegistry.CommandLine.Help
import ImageRegistry.CommandLine.Options
import ImageRegistry.CommandLine.Outcome
import ImageRegistry.Config.Draft
import ImageRegistry.Config.Options
import ImageRegistry.Config.ServerConfig
import ImageRegistry.Content.Descriptor
import ImageRegistry.Content.Digest
import ImageRegistry.Content.MediaType
import ImageRegistry.Crypto.Ed25519
import ImageRegistry.Crypto.Sha2
import ImageRegistry.Crypto.SignatureScheme
import ImageRegistry.Http.Fetching
import ImageRegistry.Http.Pushing
import ImageRegistry.Http.Removing
import ImageRegistry.Http.Request
import ImageRegistry.Http.Response
import ImageRegistry.Http.Route
import ImageRegistry.Http.Service
import ImageRegistry.Json.Nesting
import ImageRegistry.Json.Printer
import ImageRegistry.Json.Record
import ImageRegistry.Json.Token
import ImageRegistry.Json.Value
import ImageRegistry.Location.Host
import ImageRegistry.Location.WebLocation
import ImageRegistry.Location.Url
import ImageRegistry.Main
import ImageRegistry.Manifest.Image
import ImageRegistry.Manifest.Index
import ImageRegistry.Manifest.Legacy
import ImageRegistry.Manifest.Manifest
import ImageRegistry.Naming.RepositoryName
import ImageRegistry.Naming.TagName
import ImageRegistry.Naming.UploadId
import ImageRegistry.Pattern.CharSet
import ImageRegistry.Pattern.ClassReader
import ImageRegistry.Pattern.Escape
import ImageRegistry.Pattern.Pattern
import ImageRegistry.Pattern.PatternFault
import ImageRegistry.Pattern.Reader
import ImageRegistry.Program.Call
import ImageRegistry.Program.DescriptorCache
import ImageRegistry.Program.Program
import ImageRegistry.Program.World
import ImageRegistry.Proofs.Collection.Collecting
import ImageRegistry.Proofs.Collection.Liveness
import ImageRegistry.Proofs.Collection.Loading
import ImageRegistry.Proofs.Collection.Marked
import ImageRegistry.Proofs.Collection.Readiness
import ImageRegistry.Proofs.Collection.Sweeping
import ImageRegistry.Proofs.Collection.Tracing
import ImageRegistry.Proofs.Http.Serving
import ImageRegistry.Proofs.Json.Fields
import ImageRegistry.Proofs.Json.Printing
import ImageRegistry.Proofs.Json.Scanning
import ImageRegistry.Proofs.Json.Splicing
import ImageRegistry.Proofs.Manifest.Recognition
import ImageRegistry.Proofs.Manifest.Signing
import ImageRegistry.Proofs.Manifest.Verifying
import ImageRegistry.Proofs.Program.Site
import ImageRegistry.Proofs.Registry.Admission
import ImageRegistry.Proofs.Registry.Changes
import ImageRegistry.Proofs.Registry.History
import ImageRegistry.Proofs.Registry.Ledger
import ImageRegistry.Proofs.Registry.Making
import ImageRegistry.Proofs.Registry.Names
import ImageRegistry.Proofs.Registry.Queries
import ImageRegistry.Proofs.Registry.Records
import ImageRegistry.Proofs.Storage.Buckets
import ImageRegistry.Proofs.Storage.Descents
import ImageRegistry.Proofs.Storage.FileTrees
import ImageRegistry.Proofs.Storage.Paths
import ImageRegistry.Proofs.Text.Base64Url
import ImageRegistry.Proofs.Text.Octets
import ImageRegistry.Reading
import ImageRegistry.Registry.BlobStore
import ImageRegistry.Registry.Layout
import ImageRegistry.Registry.LinkStore
import ImageRegistry.Registry.Maintenance
import ImageRegistry.Registry.Manifests
import ImageRegistry.Registry.Repository
import ImageRegistry.Registry.Settings
import ImageRegistry.Registry.Tags
import ImageRegistry.Registry.Uploads
import ImageRegistry.RegistryError
import ImageRegistry.Storage.Backend
import ImageRegistry.Storage.Choice
import ImageRegistry.Storage.Disk
import ImageRegistry.Storage.FileTree
import ImageRegistry.Storage.Memory
import ImageRegistry.Storage.Path
import ImageRegistry.Storage.StorageError
import ImageRegistry.Text.Base64Url
import ImageRegistry.Text.Blank
import ImageRegistry.Text.Form
import ImageRegistry.Text.Hex
import ImageRegistry.Text.Octets
import ImageRegistry.Text.Percent
import ImageRegistry.Text.Split
import ImageRegistry.Text.Word
import ImageRegistry.Text.WordTable
import ImageRegistry.Toml.Moment
import ImageRegistry.Toml.Reader
import ImageRegistry.Toml.Scalar
import ImageRegistry.Toml.Table
import ImageRegistry.Toml.Token
import ImageRegistry.Proofs.Registry.Upkeep
import ImageRegistry.Proofs.Collection.Rehearsal
import ImageRegistry.Proofs.Collection.Completeness
import ImageRegistry.Proofs.Registry.Transparency
import ImageRegistry.Proofs.Collection.FailClosed
import ImageRegistry.Proofs.Registry.Integrity
import ImageRegistry.Proofs.Registry.Locations
import ImageRegistry.Proofs.Http.Roundtrip
import ImageRegistry.Proofs.Registry.Tenancy
import ImageRegistry.Proofs.Collection.Piecewise
import ImageRegistry.Proofs.Registry.Listing
import ImageRegistry.Proofs.Registry.Sessions
import ImageRegistry.Proofs.Registry.UploadIds
import ImageRegistry.Proofs.Registry.Isolation
import ImageRegistry.Proofs.Registry.Confinement
import ImageRegistry.Proofs.Http.Confinement
import ImageRegistry.Proofs.Http.ReadOnly
import ImageRegistry.Proofs.Json.Rereading
import ImageRegistry.Proofs.Manifest.Rereading
import ImageRegistry.Proofs.Storage.Disks
import ImageRegistry.Proofs.Registry.Keyspace
import ImageRegistry.Proofs.Registry.Backends
import ImageRegistry.Proofs.Registry.Portability
import ImageRegistry.Proofs.Registry.Refusal
import ImageRegistry.Proofs.Collection.Visiting
import ImageRegistry.Proofs.Collection.Surveying
import ImageRegistry.Proofs.Collection.Accounting
import ImageRegistry.Proofs.Collection.Repeating
import ImageRegistry.Proofs.Collection.Visibility
import ImageRegistry.Proofs.Registry.Tagging
import ImageRegistry.Proofs.Http.Routing
import ImageRegistry.Proofs.Manifest.Authenticity
import ImageRegistry.Proofs.Manifest.Served
import ImageRegistry.Proofs.Text.Words
import ImageRegistry.Proofs.Naming.Grammar
import ImageRegistry.Proofs.Registry.Untagging
import ImageRegistry.Proofs.Registry.Deleting
import ImageRegistry.Proofs.Registry.Pushes
import ImageRegistry.Proofs.Collection.Rounds
import ImageRegistry.Proofs.Storage.Holding
import ImageRegistry.Proofs.Registry.Enumeration
import ImageRegistry.Proofs.Storage.Gains
import ImageRegistry.Proofs.Storage.Uploading

/-! A registry of container images, and what is proved of it.

A request, a job or a collection of garbage is one step of a registry; of the lock between writers
and a collection it is told only who has to wait. Left out are log output, the socket of a server,
times at which files were written and the places at which failures were noticed, as nothing that is
done depends on them, and media types that are neither read nor written. The time, fresh upload
identifiers and signing keys are given from outside. How locations are read and how signatures are
made and checked is given with the settings. -/
