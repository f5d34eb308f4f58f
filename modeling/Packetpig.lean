import Packetpig.Library.Text
import Packetpig.Library.Word
import Packetpig.Library.Radix
import Packetpig.Library.JavaText
import Packetpig.Library.Pattern
import Packetpig.Library.ArgumentParser
import Packetpig.Library.Json
import Packetpig.Library.Rounding
import Packetpig.Library.JavaFloat
import Packetpig.Library.Fallible
import Packetpig.Library.PullSource
import Packetpig.Library.Runs
import Packetpig.Library.Bins
import Packetpig.Library.Groups
import Packetpig.Library.RootedTree
import Packetpig.Library.Transitions
import Packetpig.Library.ChildProcess
import Packetpig.Library.PrefixTree
import Packetpig.Library.BitString
import Packetpig.Library.JsonWriter
import Packetpig.Library.Dictionary
import Packetpig.Library.JsObject
import Packetpig.Library.PlainObject
import Packetpig.Library.JsHeap
import Packetpig.Exceptions
import Packetpig.Pcap.PcapFSDataInputStream
import Packetpig.Pcap.RecordStream
import Packetpig.Pcap.PcapInputStream
import Packetpig.Pcap.StreamingPcapRecordReader
import Packetpig.Packet.Frame
import Packetpig.Packet.PacketFilter
import Packetpig.Packet.PacketNgramRecordReader
import Packetpig.Packet.PlacedPayload
import Packetpig.Packet.CountedFrames
import Packetpig.Packet.NgramRows
import Packetpig.Packet.NgramCount
import Packetpig.Packet.NgramKeys
import Packetpig.Packet.NgramLabels
import Packetpig.Packet.FilteredPackets
import Packetpig.Packet.DnsPacketRecordReader
import Packetpig.Packet.DnsRows
import Packetpig.Packet.DnsOwnRows
import Packetpig.Packet.CorruptedCapture
import Packetpig.Packet.PacketRecordReader
import Packetpig.Packet.PacketRows
import Packetpig.Packet.InsertedFrame
import Packetpig.Detection.SnortRecordReader
import Packetpig.Detection.SnortProcess
import Packetpig.Detection.SnortAlerts
import Packetpig.Detection.CoveredAlerts
import Packetpig.Detection.AlertFiles
import Packetpig.Detection.AlertKeys
import Packetpig.Detection.FingerprintRecordReader
import Packetpig.Detection.FingerprintTranscripts
import Packetpig.Tcp.HttpHandler
import Packetpig.Tcp.HttpMessages
import Packetpig.Tcp.HeaderBlocks
import Packetpig.Tcp.ChunkedMessages
import Packetpig.Tcp.StreamHandler
import Packetpig.Tcp.HttpBodyDumpEmitter
import Packetpig.Tcp.ConversationRuns
import Packetpig.Tcp.MalformedHttp
import Packetpig.Tcp.MessageLoops
import Packetpig.Tcp.RequestFilenames
import Packetpig.Tcp.BodyFiles
import Packetpig.Tcp.StreamProcess
import Packetpig.Tcp.HTTPConversationRecordReader
import Packetpig.Tcp.HeaderLines
import Packetpig.Cube.TrigramCube
import Packetpig.Cube.ReducedTrigrams
import Packetpig.Cube.DrawnCube
import Packetpig.Dns.DNS
import Packetpig.Dns.DnsParser
import Packetpig.Dns.DNSConversationRecordReader
import Packetpig.Dns.ConversationRows
import Packetpig.Dns.WireNames
import Packetpig.Dns.WireMessages
import Packetpig.Conversation.ConversationRecordReader
import Packetpig.Conversation.Intervals
import Packetpig.Conversation.CapturedConversations
import Packetpig.Conversation.ConversationFileRecordReader
import Packetpig.Conversation.FileCommands
import Packetpig.Conversation.TimestampKeys
import Packetpig.Pig.Binning
import Packetpig.Pig.TimeBins
import Packetpig.Ubigraph.Dns
import Packetpig.Ubigraph.DomainTree
import Packetpig.Charts.MultipleTimeSeries
import Packetpig.Charts.GroupedRows
import Packetpig.Charts.SeriesGrid
import Packetpig.Charts.RegularRows
import Packetpig.Charts.Csv
import Packetpig.Charts.CsvRows
import Packetpig.Charts.Scales
import Packetpig.Charts.WorldMap
import Packetpig.Charts.Globe
import Packetpig.GeoIp.LookupService
import Packetpig.GeoIp.TreeWalk
import Packetpig.GeoIp.Caches
import Packetpig.GeoIp.DatabaseFile
import Packetpig.GeoIp.Udf
import Packetpig.GeoIp.Records
import Packetpig.GeoIp.Locations
import Packetpig.GeoIp.Countries
import Packetpig.GeoIp.Lookups
import Packetpig.Pig.GlobeSnort
import Packetpig.Pig.GlobePoints
import Packetpig.Pig.ChoroplethSnort
import Packetpig.Pig.SnortCountryChart
import Packetpig.Pig.Conversations
import Packetpig.Pig.PacketLatency
import Packetpig.Pig.SnortBreakdown
import Packetpig.Pig.SnortComparison
import Packetpig.Pig.RowOrder
import Packetpig.Storage.JsonStorage
import Packetpig.Storage.StoredObjects
import Packetpig.Storage.TypedTuples
