import UNit.BootMounts
import UNit.ChildDescriptors
import UNit.CmdlineRoundTrip
import UNit.FailureReason
import UNit.InittabCells
import UNit.InittabEnd
import UNit.InittabGrammar
import UNit.InittabRoundTrip
import UNit.LexerBounds
import UNit.LineFraming
import UNit.MountDefaults
import UNit.OrderlyShutdown
import UNit.SafeModeCauses
import UNit.ShutdownSignals
import UNit.SingleRequest
import UNit.TokenSplitting
import UNit.WaitingReason
import UNit.WatchdogRuns
