import CortenDesk.Strategy.Compliance
import CortenDesk.Strategy.Canonical
import CortenDesk.Strategy.Inspection
import CortenDesk.Sso.Pinning
import CortenDesk.Access.TokenRuns
import CortenDesk.Console.Delegation
import CortenDesk.AdminApi.Scope
import CortenDesk.WebClient.Integrity
import CortenDesk.Api.UuidPin
import CortenDesk.Console.RevisionHistory
import CortenDesk.Console.InvitedAuthority
import CortenDesk.Auth.Gates
import CortenDesk.Auth.SingleUse
import CortenDesk.Auth.LinkExclusivity
import CortenDesk.Sso.Redemption
import CortenDesk.Sso.VerifiedMail
import CortenDesk.Sso.Denials
import CortenDesk.Sso.TokenExchange
import CortenDesk.Sso.Usernames
import CortenDesk.Auth.CutOff
import CortenDesk.Notifications.SingleRecovery
import CortenDesk.Notifications.Credentials
import CortenDesk.AddressBook.Import
import CortenDesk.AddressBook.LegacyCodec
import CortenDesk.AddressBook.Operations
import CortenDesk.AddressBook.TagGrowth
import CortenDesk.AddressBook.TagImport
import CortenDesk.AddressBook.TagIntegrity
import CortenDesk.AddressBook.NamedDeletes
import CortenDesk.Api.Assignment
import CortenDesk.AdminApi.Groups
import CortenDesk.Audit.Connections
import CortenDesk.Audit.LiveSessions
import CortenDesk.Audit.Disconnects
import CortenDesk.Api.GroupReach
import CortenDesk.Console.DeviceOrder
import CortenDesk.Console.BookAuthority
import CortenDesk.Console.GroupGrants
import CortenDesk.Lib.Pool
import CortenDesk.WebClient.DisplaySwitch
import CortenDesk.WebClient.OneWay
import CortenDesk.WebClient.Teardown
import CortenDesk.WebClient.VoiceCall
import CortenDesk.WebClient.FrameDelivery
import CortenDesk.WebClient.KeyFrames
import CortenDesk.WebClient.Recordings
import CortenDesk.WebClient.ControlFunctions
import CortenDesk.WebClient.PointerInput
import CortenDesk.WebClient.VoiceEpochs
import CortenDesk.WebClient.CodecAdvertising
import CortenDesk.WebClient.CursorShapes
import CortenDesk.WebClient.UploadAnswers
import CortenDesk.WebClient.DownloadCommits
import CortenDesk.WebClient.RemotePaths
import CortenDesk.WebClient.PointerMapping
import CortenDesk.WebClient.AddrMangle
import CortenDesk.WebClient.PcmScheduler
import CortenDesk.WebClient.KeyInput
import CortenDesk.WebClient.LoginHash
import CortenDesk.Sso.ConsoleRedemption
import CortenDesk.Console.Acceptances
import CortenDesk.Console.DownloadShelf
import CortenDesk.WebClient.Codecs
