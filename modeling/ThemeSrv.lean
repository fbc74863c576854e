import ThemeSrv.ConcatenatedParts
import ThemeSrv.LittleEndianBytes
import ThemeSrv.NativeByteOrder
import ThemeSrv.ThreeWayComparison
import ThemeSrv.KeyedList
import ThemeSrv.KeystreamCipher
import ThemeSrv.AllocatedBlock
import ThemeSrv.TransitionSystem
import ThemeSrv.ComponentFamily
import ThemeSrv.BufferedStream
import ThemeSrv.ModularPower
import ThemeSrv.Base64
import ThemeSrv.ProtocolMessages
import ThemeSrv.Socket
import ThemeSrv.ClientBase
import ThemeSrv.FieldSizes
import ThemeSrv.ReaderPlan
import ThemeSrv.ReaderConsume
import ThemeSrv.ReaderTurn
import ThemeSrv.ReaderRun
import ThemeSrv.ReaderCalls
import ThemeSrv.MessageContents
import ThemeSrv.ReaderField
import ThemeSrv.ReaderSegmentation
import ThemeSrv.ReaderBounds
import ThemeSrv.ReaderKeystream
import ThemeSrv.ElementLimits
import ThemeSrv.ReaderProgress
import ThemeSrv.WriterQueue
import ThemeSrv.OfferedBytes
import ThemeSrv.MessageEncoding
import ThemeSrv.EncodeDecode
import ThemeSrv.UruCrypt
import ThemeSrv.PublishedKeys
import ThemeSrv.Client
import ThemeSrv.Gatekeeper
import ThemeSrv.Connection
import ThemeSrv.ClientStages
import ThemeSrv.ConnectionRuns
import ThemeSrv.MessageTypes
import ThemeSrv.WakeUps
import ThemeSrv.WriterDrain
import ThemeSrv.EncryptionBoundary
import ThemeSrv.RequestReplies
import ThemeSrv.DecryptedConnections
import ThemeSrv.FieldAccessors
import ThemeSrv.ActionFrames
import ThemeSrv.Dispatcher
import ThemeSrv.RegistryAgreement
import ThemeSrv.ServerRuns
import ThemeSrv.EventOutcomes
import ThemeSrv.ServerConnections
import ThemeSrv.DescriptorOwnership
import ThemeSrv.BatchOrder
import ThemeSrv.MessageDelivery
import ThemeSrv.Session
import ThemeSrv.SessionHandlers
import ThemeSrv.FilledImages
import ThemeSrv.ReaderStops
import ThemeSrv.StopCauses
import ThemeSrv.ClientResources
import ThemeSrv.UniqueDecoding
import ThemeSrv.SessionRuns
import ThemeSrv.ClientRuns
import ThemeSrv.SessionRefusals
import ThemeSrv.Deployment
import ThemeSrv.Restarts
import ThemeSrv.AcceptQueue
import ThemeSrv.AccessorAgreement
import ThemeSrv.Uuid
import ThemeSrv.ImageEncoding
import ThemeSrv.StringTruncation
import ThemeSrv.AddressBinding
import ThemeSrv.KeyLoading
import ThemeSrv.BacktrackingRegex
import ThemeSrv.ConfigParser
import ThemeSrv.ConfigLines
import ThemeSrv.ConfigTables
import ThemeSrv.ConfigRoundTrip
