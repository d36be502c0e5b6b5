import Libgpsfile2.Library.Slice
import Libgpsfile2.Library.Simulation
import Libgpsfile2.Library.Session
import Libgpsfile2.Library.Queue
import Libgpsfile2.Library.Keyed
import Libgpsfile2.Basic
import Libgpsfile2.Utils.Iobuf
import Libgpsfile2.Utils.Window
import Libgpsfile2.Utils.Put
import Libgpsfile2.Utils.IobufQueue
import Libgpsfile2.Utils.Exact
import Libgpsfile2.Utils.Reads
import Libgpsfile2.Utils.Drain
import Libgpsfile2.Utils.Str
import Libgpsfile2.Datahandler
import Libgpsfile2.DatahandlerReader
import Libgpsfile2.RequestedLength
import Libgpsfile2.EndOfFile
import Libgpsfile2.DatahandlerWriter
import Libgpsfile2.DatahandlerPlain
import Libgpsfile2.PlainTruncation
import Libgpsfile2.Library.Filing
import Libgpsfile2.Provider.ProviderGpsRouteWriter
import Libgpsfile2.Provider.ProviderStore
import Libgpsfile2.Provider.Atomic
import Libgpsfile2.Gpx.GpxWriter
import Libgpsfile2.Gpx.Requests
import Libgpsfile2.Gpx.Indices
import Libgpsfile2.Gpx.Extensions
import Libgpsfile2.Gpx.Reference
import Libgpsfile2.Gpx.Feeding
import Libgpsfile2.FailedWrite
import Libgpsfile2.FinalCall
import Libgpsfile2.Gpx.Import
import Libgpsfile2.Gpx.Points
import Libgpsfile2.Gpx.Chunks
import Libgpsfile2.Plugin.Registry
import Libgpsfile2.Plugin.Lookups
import Libgpsfile2.Plugin.GpsfilePlugin
import Libgpsfile2.Plugin.Log
import Libgpsfile2.Plugin.Removal
import Libgpsfile2.Plugin.Unload
import Libgpsfile2.Plugin.Create
import Libgpsfile2.Library.View
import Libgpsfile2.Provider.Content
import Libgpsfile2.Provider.Isolation
import Libgpsfile2.Provider.Routes
import Libgpsfile2.Gpx.Result
import Libgpsfile2.Gpx.Stored
import Libgpsfile2.Gpx.Imported
import Libgpsfile2.Gpx.SmallChunks
import Libgpsfile2.Utils.Bulk
import Libgpsfile2.Utils.Memory
import Libgpsfile2.StreamAvailible
import Libgpsfile2.Gpx.Imports
import Libgpsfile2.WholeOutput
import Libgpsfile2.Gpx.Sharing
import Libgpsfile2.Plugin.Handlers
import Libgpsfile2.PlainCopy
