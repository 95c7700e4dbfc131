import GhcGateway.Accounts.AccountConsistency
import GhcGateway.Accounts.AccountCoordination
import GhcGateway.Accounts.DeviceFlowAgreement
import GhcGateway.Admin.EventResumption
import GhcGateway.Conversion.CarrierIsolation
import GhcGateway.Conversion.ChatMeaning
import GhcGateway.Conversion.ExtendedToolBindings
import GhcGateway.Conversion.LedgerBytes
import GhcGateway.Conversion.LedgerTools
import GhcGateway.Conversion.SseChunks
import GhcGateway.Conversion.ToolArgumentsEqual
import GhcGateway.Copilot.EndpointFreshness
import GhcGateway.Copilot.HeaderFields
import GhcGateway.Copilot.InferencePoolErrors
import GhcGateway.Copilot.Redirects
import GhcGateway.Daemon.LifecycleCoordination
import GhcGateway.Daemon.LifecycleCoordinator
import GhcGateway.Daemon.LifecycleLanes
import GhcGateway.Daemon.LogSteps
import GhcGateway.Gateway.AdmissionBound
import GhcGateway.Gateway.AdmissionOrder
import GhcGateway.Gateway.BodyDelivery
import GhcGateway.Gateway.StreamSettlement
import GhcGateway.History.Continuation
import GhcGateway.History.Ownership
import GhcGateway.History.ReceiptMoves
import GhcGateway.History.ReplayRoundTrip
import GhcGateway.History.Revision
import GhcGateway.Library.Paging
import GhcGateway.Messages.NativeMessagesTransparency
import GhcGateway.Messages.UsageFolding
import GhcGateway.Requests.ChatAdjacency
import GhcGateway.Requests.ChatMembers
import GhcGateway.Requests.MessagesShape
import GhcGateway.Requests.SchemaCleaning
import GhcGateway.Responses.NativeSseChunks
import GhcGateway.Serialization.Base64Url
import GhcGateway.Serialization.CanonicalJson
import GhcGateway.Serialization.JsonSerializer
import GhcGateway.Serialization.JsonText
import GhcGateway.Telemetry.Admin
import GhcGateway.Telemetry.AdminPaging
import GhcGateway.Telemetry.AdminWalks
import GhcGateway.Telemetry.Conservation
