import Rssip.Lib.Machine
import Rssip.Transaction.Ack
import Rssip.Transaction.ClientDrain
import Rssip.Endpoint.Registration
import Rssip.Transaction.ServerWire
import Rssip.Transport.LengthLines
import Rssip.Parser.Termination
import Rssip.Parser.Boundary
import Rssip.Parser.Spelling
import Rssip.Media.SdpRoundTrip
import Rssip.Media.SdpOwnLines
import Rssip.Media.SdpSkipped
import Rssip.Media.SdpSections
import Rssip.Media.SdpAddresses
import Rssip.Media.Negotiator
import Rssip.Media.Rtpmap
import Rssip.Media.Matching
import Rssip.Ua.Responses
import Rssip.Ua.Sequence
import Rssip.Ua.Target
import Rssip.Ua.DialogTable
import Rssip.Ua.DialogStates
import Rssip.Ua.SessionTables
import Rssip.Transport.Connections
import Rssip.Parser.Combined
import Rssip.Transaction.KeyMatch
import Rssip.Transport.Reuse
import Rssip.Endpoint.SendResponse
import Rssip.Transaction.ClientFailures
import Rssip.Lib.Timed
import Rssip.Transaction.ServerCounts
import Rssip.Transaction.ServerCopies
import Rssip.Transaction.ServerTimers
import Rssip.Transaction.ClientTimers
import Rssip.Transport.ReadLoops
import Rssip.Endpoint.Destination
import Rssip.Parser.Canonical
import Rssip.Parser.ReadBack
import Rssip.Transaction.SentBy
import Rssip.Parser.Reencoding
import Rssip.Parser.Addresses
import Rssip.Parser.Forwarding
import Rssip.Parser.DisplayNames
import Rssip.Parser.Methods
import Rssip.Parser.Panics
import Rssip.Parser.Versions
import Rssip.Message.Quality
import Rssip.Utils.PeekHistory
import Rssip.Utils.Consumption
import Rssip.Utils.Positions
import Rssip.Endpoint.Exchange
import Rssip.Transport.Streams
import Rssip.Endpoint.OutgoingRequests
import Rssip.Ua.Agents
import Rssip.Media.Agreement
import Rssip.Ua.OfferAnswer
import Rssip.Endpoint.Datagrams
import Rssip.Transaction.ClientProgress
import Rssip.Transaction.ServerProgress
