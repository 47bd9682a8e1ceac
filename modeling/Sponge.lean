import Sponge.BufferLifetime
import Sponge.BufferListRefinement
import Sponge.BufferLockStep
import Sponge.BufferViews
import Sponge.Datagram
import Sponge.EventLoopBusyWait
import Sponge.EventLoopDispatch
import Sponge.EventLoopDrain
import Sponge.EventLoopLiveness
import Sponge.EventLoopOutcome
import Sponge.FileDescriptorOwnership
import Sponge.FileDescriptorRead
import Sponge.FileDescriptorSetup
import Sponge.FileDescriptorWrite
import Sponge.Hexdump
import Sponge.InternetChecksum
import Sponge.InternetChecksumLaws
import Sponge.NetParserErrors
import Sponge.NetParserRuns
import Sponge.SendEquivalenceChecker
import Sponge.Socket
import Sponge.StreamPair
import Sponge.TCPTestVerdict
