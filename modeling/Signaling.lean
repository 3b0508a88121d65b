import Signaling.AcceptPairing
import Signaling.CallAccounting
import Signaling.CallLookup
import Signaling.CallWindow
import Signaling.CallbackRoute
import Signaling.CallerLogin
import Signaling.CandidateExchange
import Signaling.ClientAddress
import Signaling.ClientCompletion
import Signaling.Credentials
import Signaling.Departure
import Signaling.DescriptorOwnership
import Signaling.DialogueFarewell
import Signaling.ExchangeCompletion
import Signaling.ExchangeProgress
import Signaling.ExchangeTexts
import Signaling.FirstSignup
import Signaling.FlagAgreement
import Signaling.Interleavings
import Signaling.InviteReading
import Signaling.InviteRelay
import Signaling.LiveLogins
import Signaling.LoginFlag
import Signaling.LogoutEffect
import Signaling.MapHistory
import Signaling.OutboundQueues
import Signaling.PayloadOffset
import Signaling.ReplyMatching
import Signaling.ReplyRelay
import Signaling.Requests
import Signaling.SdpExchange
import Signaling.SdpJson
import Signaling.Segmentation
import Signaling.ServerCompletion
import Signaling.SessionCompletion
import Signaling.SessionPrivacy
import Signaling.StoreRecords
import Signaling.WaitProgress
import Signaling.Wire
