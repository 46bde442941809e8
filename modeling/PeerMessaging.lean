import PeerMessaging.Logging
import PeerMessaging.Proofs.Link.Delivery
import PeerMessaging.Scenario.Sockets
import PeerMessaging.Wire.StreamCodec
import PeerMessaging.Proofs.Wire.Lockstep
import PeerMessaging.Proofs.Wire.Writing
import PeerMessaging.Proofs.Wire.Reading
import PeerMessaging.Proofs.Link.Agenda
import PeerMessaging.Proofs.Link.Ending
import PeerMessaging.Proofs.Link.Verdict
import PeerMessaging.Proofs.Link.LastError
import PeerMessaging.Proofs.Link.Walk
import PeerMessaging.Proofs.Link.Overlap
import PeerMessaging.Proofs.Link.Rounds
import PeerMessaging.Proofs.Link.Shutdown
import PeerMessaging.Proofs.Link.Sockets
import PeerMessaging.Proofs.Link.Refusals
import PeerMessaging.Proofs.Link.Renewal
import PeerMessaging.Proofs.Wire.Channel
import PeerMessaging.Proofs.Link.Handing
import PeerMessaging.Proofs.Link.Exchange
import PeerMessaging.Proofs.Link.Duplex
import PeerMessaging.Proofs.Link.Progress
import PeerMessaging.Proofs.Link.Liveness
import PeerMessaging.Proofs.Wire.Buffered
import PeerMessaging.Proofs.Wire.Acceptance
import PeerMessaging.Proofs.Message.Registration
import PeerMessaging.Proofs.Message.RoundTrip
import PeerMessaging.Proofs.Wire.Bursts
import PeerMessaging.Proofs.Link.Inbound
import PeerMessaging.Proofs.Link.Closing
import PeerMessaging.Proofs.Link.Fifo
import PeerMessaging.Proofs.Message.Naming
import PeerMessaging.Proofs.Wire.Assembly
import PeerMessaging.Proofs.Message.Measurements
import PeerMessaging.Proofs.Message.SimilarNames
import PeerMessaging.Proofs.Wire.Flushing
import PeerMessaging.Proofs.Link.Audience
