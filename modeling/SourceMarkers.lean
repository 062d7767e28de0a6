import SourceMarkers.Main
import SourceMarkers.Text.Utf8.RoundTrip
import SourceMarkers.Proofs.Json.RoundTrip
import SourceMarkers.Proofs.Json.Reading
import SourceMarkers.Proofs.Json.Plain
import SourceMarkers.Proofs.Marker.BasePath
import SourceMarkers.Proofs.Path.Prefix
import SourceMarkers.Proofs.Json.Record
import SourceMarkers.Proofs.Marker.RoundTrip
import SourceMarkers.Proofs.Catalog.Kept
import SourceMarkers.Proofs.Catalog.RoundTrip
import SourceMarkers.Proofs.Catalog.Alike
import SourceMarkers.Proofs.Files.Walk
import SourceMarkers.Proofs.Files.Write
import SourceMarkers.Proofs.Files.Kept
import SourceMarkers.Proofs.Session.Step
import SourceMarkers.Proofs.Session.Asks
import SourceMarkers.Proofs.Session.Atomic
import SourceMarkers.Proofs.Session.Run
import SourceMarkers.Proofs.Session.Restart
import SourceMarkers.Proofs.Session.Mirror
import SourceMarkers.Proofs.Session.Requests
import SourceMarkers.Proofs.Session.Stream
import SourceMarkers.Proofs.Session.Hosting
import SourceMarkers.Proofs.Catalog.Operations
import SourceMarkers.Proofs.Path.Converse
import SourceMarkers.Proofs.Catalog.Converse
import SourceMarkers.Proofs.Session.Classes
import SourceMarkers.Proofs.Session.Positional
import SourceMarkers.Proofs.Session.Framing
import SourceMarkers.Proofs.Catalog.Moved
import SourceMarkers.Proofs.Catalog.Clearing
import SourceMarkers.Proofs.Catalog.History
import SourceMarkers.Proofs.Marker.Records
import SourceMarkers.Proofs.Catalog.Neighbours
import SourceMarkers.Proofs.Session.Loading
import SourceMarkers.Proofs.Marker.Written
import SourceMarkers.Proofs.Catalog.Omissions
import SourceMarkers.Proofs.Session.Report
import SourceMarkers.Proofs.Catalog.Projection
import SourceMarkers.Proofs.Session.Shown
import SourceMarkers.Proofs.Session.Retry
import SourceMarkers.Proofs.Marker.NormalForm
import SourceMarkers.Proofs.Session.EmptyBase
import SourceMarkers.Proofs.Files.RoundTrip
import SourceMarkers.Proofs.Program.Serving
