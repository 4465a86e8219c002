import Statsd.Config
import Statsd.Stream.Server
import Statsd.Proofs.Session.Transparency
import Statsd.Proofs.Datagram.Resolve
import Statsd.Proofs.Lines
import Statsd.Proofs.Text
import Statsd.Proofs.Daemon.Reader
import Statsd.Proofs.Session.Passed
import Statsd.Proofs.Session.Heard
import Statsd.Proofs.Daemon.Gauges
import Statsd.Proofs.Batch.Fewest
import Statsd.Proofs.Config
import Statsd.Proofs.Session.Payload
import Statsd.Proofs.Session.Omission
import Statsd.Proofs.Session.SubClient
import Statsd.Proofs.Stream.Script
import Statsd.Proofs.Stream.Recovery
import Statsd.Proofs.Session.Warnings
import Statsd.Proofs.Session.Spans
import Statsd.Proofs.Session.Lineage
import Statsd.Proofs.Session.Members
import Statsd.Proofs.Bind
import Statsd.Proofs.Settings
import Statsd.Proofs.Capacity
