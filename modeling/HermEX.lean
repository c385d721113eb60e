import HermEX.Ics.Parser
import HermEX.Imap.Sequence
import HermEX.Imap.Flags
import HermEX.Imap.SeqSet
import HermEX.Mapihttp.Owners
import HermEX.Rop.Delegate
import HermEX.Mta.Transactions
import HermEX.Mta.Forwarding
import HermEX.Spooler.Release
import HermEX.Dav.Conditional
import HermEX.Dav.Sync
import HermEX.Rop.Secrecy
import HermEX.Rop.StreamBuffer
import HermEX.Ics.Production
import HermEX.Ics.State
import HermEX.Ics.CodecRoundTrip
import HermEX.Lzxpress.RoundTrip
import HermEX.Meeting.DoubleBooking
import HermEX.Dav.InStep
import HermEX.Recurrence.Series
import HermEX.Recurrence.AppointmentRoundTrip
import HermEX.Relay.Once
import HermEX.Relay.Kept
import HermEX.ActiveSync.Isolation
import HermEX.Ews.SyncItems
import HermEX.Rpchttp.Reassembly
import HermEX.Wbxml.RoundTrip
import HermEX.Rpchttp.Vconn
import HermEX.Mapihttp.Notified
import HermEX.Oxcical.Windows
import HermEX.Imap.Thread
import HermEX.Imap.CommandReader
import HermEX.Smtp.SizeLimit
import HermEX.Mime.Multipart
import HermEX.Oxcical.Expanded
import HermEX.Objectstore.LocalIDs
import HermEX.Objectstore.RulesEval
