import KdeConnectNx.RecordStream
import KdeConnectNx.PairingAgreement
import KdeConnectNx.Connection
import KdeConnectNx.ConnectionRuns
import KdeConnectNx.LiveSessions
import KdeConnectNx.DeviceFiles
import KdeConnectNx.Plugins
import KdeConnectNx.UnpairedSends
import KdeConnectNx.SendLoop
import KdeConnectNx.MalformedPackets
import KdeConnectNx.PayloadTransfer
import KdeConnectNx.PayloadPeers
import KdeConnectNx.SilentPeer
import KdeConnectNx.Identifiers
import KdeConnectNx.SessionTable
import KdeConnectNx.Replies
import KdeConnectNx.Custody
import KdeConnectNx.SocketOwnership
import KdeConnectNx.TextSizes
import KdeConnectNx.IdentityPackets
import KdeConnectNx.PluginTalk
import KdeConnectNx.Retraction
import KdeConnectNx.Establishment
import KdeConnectNx.EstablishmentRuns
import KdeConnectNx.PairedStore
import KdeConnectNx.Restarts
import KdeConnectNx.ArtScaling
import KdeConnectNx.ReceivedFiles
import KdeConnectNx.Scales
import KdeConnectNx.VolumeEchoes
import KdeConnectNx.LocalVolume
import KdeConnectNx.FailedDownloads
import KdeConnectNx.NumberFields
import KdeConnectNx.SelectedPlayer
import KdeConnectNx.ArtCache
import KdeConnectNx.PostedTable
import KdeConnectNx.Recency
import KdeConnectNx.Debouncing
import KdeConnectNx.MediaPosition
import KdeConnectNx.Playback
import KdeConnectNx.LateArt
import KdeConnectNx.PlayerLists
import KdeConnectNx.SharedIcons
import KdeConnectNx.IconWriter
import KdeConnectNx.BatteryUpdates
import KdeConnectNx.ProbeCooldown
import KdeConnectNx.VerificationKeys
import KdeConnectNx.TlsIdentity
import KdeConnectNx.PeerCertificate
import KdeConnectNx.HiddbgCounts
import KdeConnectNx.SettingsStore
import KdeConnectNx.SettingsFile
import KdeConnectNx.LittleEndian
import KdeConnectNx.SettingsCommands
import KdeConnectNx.Framing
import KdeConnectNx.TraceFile
import KdeConnectNx.LeakReport
import KdeConnectNx.DecimalLiterals
import KdeConnectNx.Strtod
import KdeConnectNx.ChunkedFiles
import KdeConnectNx.DomainNames
import KdeConnectNx.MdnsReader
import KdeConnectNx.MdnsMessages
import KdeConnectNx.MdnsWriter
import KdeConnectNx.MdnsAnswers
import KdeConnectNx.MdnsExchange
import KdeConnectNx.MdnsDiscovery
import KdeConnectNx.DeviceFinding
import KdeConnectNx.MdnsNetwork
import KdeConnectNx.IpcSessions
import KdeConnectNx.HidKeyboard
import KdeConnectNx.TypedText
import KdeConnectNx.Thinning
import KdeConnectNx.NxLinkSink
import KdeConnectNx.CommandLists
