import IngestFarm.Dict
import IngestFarm.Prog
import IngestFarm.Runs
import IngestFarm.Json
import IngestFarm.Store
import IngestFarm.World
import IngestFarm.Session
import IngestFarm.Worker
import IngestFarm.Scheduler
import IngestFarm.Outcomes
import IngestFarm.Disconnect
import IngestFarm.RedisOutage
import IngestFarm.JobConsumers
import IngestFarm.PyText
import IngestFarm.SrtCommands
import IngestFarm.SrtAck
import IngestFarm.Views
import IngestFarm.Steps
import IngestFarm.RecordHandlers
import IngestFarm.ConnectHandlers
import IngestFarm.Heartbeat
import IngestFarm.Requests
import IngestFarm.Drain
import IngestFarm.Ownership
import IngestFarm.Startup
import IngestFarm.Recovery
import IngestFarm.Rejections
import IngestFarm.StaleIntent
import IngestFarm.Catalog
import IngestFarm.Cataloging
import IngestFarm.Etr290
import IngestFarm.Etr290Totals
import IngestFarm.TreeRemoval
import IngestFarm.Deletion
import IngestFarm.Collect
import IngestFarm.Batches
import IngestFarm.Settling
import IngestFarm.Requested
import IngestFarm.Endings
import IngestFarm.Teardown
import IngestFarm.Transient
import IngestFarm.Padded
import IngestFarm.Segments
import IngestFarm.Durations
import IngestFarm.Etr290Rows
import IngestFarm.Etr290Badge
import IngestFarm.PidStructure
import IngestFarm.PidMap
import IngestFarm.Etr290Status
import IngestFarm.Etr290Reset
import IngestFarm.Backfill
import IngestFarm.Etr290Tags
import IngestFarm.Etr290RoundTrip
import IngestFarm.Media
import IngestFarm.MediaRuns
import IngestFarm.Popping
import IngestFarm.Losses
import IngestFarm.Reconcile
import IngestFarm.Searching
import IngestFarm.Source
import IngestFarm.SourceUris
import IngestFarm.SrtSource
import IngestFarm.Paths
import IngestFarm.Serving
import IngestFarm.Cleanup
import IngestFarm.RecordGate
import IngestFarm.ReceiveRate
import IngestFarm.Playlists
import IngestFarm.Publishing
import IngestFarm.LiveFiles
import IngestFarm.SegmentDurations
import IngestFarm.UsePoll
import IngestFarm.ApiTables
import IngestFarm.AssetMedia
import IngestFarm.StartupCatalog
import IngestFarm.SrtProcesses
import IngestFarm.Listing
import IngestFarm.LiveThumb
import IngestFarm.Migrations
import IngestFarm.ChannelForm
import IngestFarm.Busy
import IngestFarm.ChannelPages
import IngestFarm.RecordingsPage
import IngestFarm.Shutdown
