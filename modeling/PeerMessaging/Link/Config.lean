import PeerMessaging.Wire.Frame

/-!
# Settings of a connection

How long a connection waits for what, and how its frames are read and written. The time limits of a
stream are the connection's, whatever its frame settings say (`ConnectionConfig.streamConfig`).
-/

namespace PeerMessaging

/-- The settings of a connection. -/
structure ConnectionConfig where
  /-- The protocol and the limit on payloads. -/
  frame : FrameConfig := {}
  /-- The time limit of one read. -/
  readTimeout : Duration := milliseconds 250
  /-- The time limit of one write. -/
  writeTimeout : Duration := milliseconds 50
  /-- How long a connection that closes goes on writing what is queued. -/
  flushTimeout : Duration := milliseconds 250
  /-- The time between keepalives. -/
  keepaliveInterval : Duration := milliseconds 500
  /-- The time limit of an attempt to connect. -/
  connectTimeout : Duration := milliseconds 2000
  /-- The time between two looks for a waiting peer. -/
  acceptInterval : Duration := milliseconds 25
  /-- The time between two looks at a connection that has not been started. -/
  idleInterval : Duration := milliseconds 10
  deriving DecidableEq, Repr

instance : Inhabited ConnectionConfig := ⟨{}⟩

/-- The frame settings of a stream of the connection. -/
def ConnectionConfig.streamConfig (c : ConnectionConfig) : FrameConfig :=
  { c.frame with readTimeout := some c.readTimeout, writeTimeout := some c.writeTimeout }

end PeerMessaging
