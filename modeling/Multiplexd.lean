import Multiplexd.Mux.Endpoint
import Multiplexd.Mux.Callbacks
import Multiplexd.Mux.Fresh
import Multiplexd.Mux.Gate
import Multiplexd.Mux.Replay
import Multiplexd.Mux.Fairness
import Multiplexd.Mux.Closes
import Multiplexd.Mux.Cuts
import Multiplexd.Mux.Withdraw
import Multiplexd.Stream.Guarantees
import Multiplexd.Ids
import Multiplexd.Server.Retired
import Multiplexd.Server.Psk
import Multiplexd.Server.Custody
import Multiplexd.Server.Selection
import Multiplexd.Server.Relay
import Multiplexd.Mux.Estimator
import Multiplexd.Mux.Fleet
import Multiplexd.Escape
import Multiplexd.Udp
import Multiplexd.Mux.Hello
import Multiplexd.Server.Waiting
import Multiplexd.Server.Stats
import Multiplexd.Conf.Credentials
import Multiplexd.Mux.FrameRing
import Multiplexd.Mux.BytebufFifo
