import Tquic.Base.Run
import Tquic.Config
import Tquic.Connection.StreamFrames

/-!
# Runs of the streams of a connection

The stream map among what drives it: the application, the endpoint, frames from the peer, and
packets sent, acknowledged, declared lost or probed for. Frames of lost packets wait for the next
call of `send`. An error in a frame closes the connection, and then no frames are received or sent.
The runs are those without the Redundant multipath scheduler, which alone buffers copies of sent
STREAM frames for other paths.
-/

namespace Tquic

abbrev Varint := Fin (2 ^ 62)

instance Varint.neZero : NeZero (2 ^ 62) := ⟨by decide⟩

inductive PeerFrame where
  | resetStream (streamId errorCode finalSize : Varint)
  | stopSending (streamId errorCode : Varint)
  | stream (streamId offset : Varint) (data : List UInt8) (fin : Bool)
  | maxData (max : Varint)
  | maxStreamData (streamId max : Varint)
  | maxStreams (bidi : Bool) (max : Varint)
  | dataBlocked (max : Varint)
  | streamDataBlocked (streamId max : Varint)
  | streamsBlocked (bidi : Bool) (max : Varint)

namespace StreamMap

/-- The stream frames among the cases of `recv_frame`. -/
def recvFrame (m : StreamMap) : PeerFrame → Exec (StreamMap × Result Unit)
  | .resetStream streamId errorCode finalSize =>
    m.onResetStreamFrameReceived streamId errorCode finalSize
  | .stopSending streamId errorCode => .ok (m.onStopSendingFrameReceived streamId errorCode)
  | .stream streamId offset data fin => m.onStreamFrameReceived streamId offset data fin
  | .maxData max => .ok (m.onMaxDataFrameReceived max, .ok ())
  | .maxStreamData streamId max => .ok (m.onMaxStreamDataFrameReceived streamId max)
  | .maxStreams bidi max => .ok (m.onMaxStreamsFrameReceived max bidi)
  | .dataBlocked _ => .ok (m, .ok ())
  | .streamDataBlocked streamId _ => .ok (m.onStreamDataBlockedFrameReceived streamId)
  | .streamsBlocked _ max => .ok (m.onStreamsBlockedFrameReceived max)

/-- The stream frames among the cases of `try_process_acked_frames`. -/
def ackFrame (m : StreamMap) : Frame → Exec StreamMap
  | .stream streamId offset length _ => m.onStreamFrameAcked streamId offset length
  | .resetStream streamId _ _ => .ok (m.onResetStreamFrameAcked streamId)
  | _ => .ok m

/-- The stream frames among the cases of `process_all_lost_frames`. -/
def loseFrame (m : StreamMap) : Frame → StreamMap
  | .resetStream streamId errorCode finalSize =>
    m.onResetStreamFrameLost streamId errorCode finalSize
  | .stopSending streamId errorCode => m.onStopSendingFrameLost streamId errorCode
  | .stream streamId offset length fin => m.onStreamFrameLost streamId offset length fin
  | .maxData _ => m.onMaxDataFrameLost
  | .maxStreamData streamId _ => m.onMaxStreamDataFrameLost streamId
  -- a lost MAX_STREAMS frame is not sent again
  | .maxStreams _ _ => m
  | .dataBlocked max => m.onDataBlockedFrameLost max
  | .streamDataBlocked streamId max => m.onStreamDataBlockedFrameLost streamId max
  | .streamsBlocked bidi max => m.onStreamsBlockedFrameLost bidi max

def failed : Result Unit → Bool
  | .error e => e ≠ .done
  | .ok () => false

def pollEvent (m : StreamMap) : StreamMap :=
  match m.events with
  | some (.streamClosed streamId :: rest) =>
    { m with events := some rest }.streamDestroy streamId
  | some (.streamCreated _ :: rest) => { m with events := some rest }
  | _ => m

/-- The streams with the packets that carry frames about them. The last three fields are the frames
acknowledged and lost, and the identifiers handed out to the application. -/
structure World where
  map : StreamMap
  sent : List (List Frame)
  lost : List Frame
  closing : Bool
  acked : List Frame
  dropped : List Frame
  opened : Bool → List ℕ

inductive Op where
  | streamNew (bidi : Bool) (urgency : ℕ) (incremental : Bool)
  | setPriority (streamId urgency : ℕ) (incremental : Bool)
  | setContext (streamId : ℕ)
  | read (streamId cap : ℕ)
  | write (streamId : ℕ) (data : List UInt8) (fin : Bool)
  | shutdown (streamId : ℕ) (direction : Direction) (err : ℕ)
  | writable (streamId len : ℕ)
  | wantRead (streamId : ℕ) (want : Bool)
  | wantWrite (streamId : ℕ) (want : Bool)
  | close
  | pollEvent
  | receive (frame : PeerFrame)
  | peerParams (tp : {p : StreamTransportParams // p.Encodable})
  | sendPacket (p : PacketRoom)
  | ackPacket (k : ℕ)
  | losePacket (k : ℕ)
  | probePacket (k : ℕ)
  | handleLost

inductive Outcome where
  | opened (r : Result ℕ)
  | read (r : Result (List UInt8 × Bool))
  | wrote (r : Result ℕ)
  | writable (r : Result Bool)
  | noted (r : Result Unit)
  deriving DecidableEq

namespace World

def new (map : StreamMap) : World := ⟨map, [], [], false, [], [], fun _ => []⟩

/-- A new connection; `endpoint` says whether an endpoint handles its events. -/
def start (conf : ReceiveConfig) (isServer endpoint : Bool) : World :=
  new { StreamMap.new isServer conf.maxConnectionWindow conf.maxStreamWindow
    conf.localTransportParams with events := if endpoint then some [] else none }

def streamNew (w : World) (bidi : Bool) (urgency : ℕ) (incremental : Bool) : World × Outcome :=
  match w.map.streamNew bidi urgency incremental with
  | (map, .error e) => ({ w with map := map }, .opened (.error e))
  | (map, .ok streamId) =>
    ({ w with
      map := map
      opened := Function.update w.opened bidi (w.opened bidi ++ [streamId]) },
      .opened (.ok streamId))

def receive (w : World) (frame : PeerFrame) : Exec (World × Outcome) :=
  if w.closing then .ok (w, .noted (.ok ()))
  else do
    let (map, r) ← w.map.recvFrame frame
    return ({ w with map := map, closing := failed r }, .noted r)

def sendPacket (w : World) (p : PacketRoom) : Exec (World × Outcome) :=
  if w.closing then .ok (w, .noted (.ok ()))
  else do
    let (map, frames) ← w.map.sendStreamFrames p
    return ({ w with
      map := map
      sent := if frames = [] then w.sent else w.sent ++ [frames] }, .noted (.ok ()))

def ackPacket (w : World) (k : ℕ) : Exec (World × Outcome) :=
  if w.closing then .ok (w, .noted (.ok ()))
  else
    match w.sent[k]? with
    | none => .ok (w, .noted (.ok ()))
    | some frames => do
        let map ← frames.foldlM StreamMap.ackFrame w.map
        return ({ w with map := map, sent := w.sent.eraseIdx k, acked := w.acked ++ frames },
          .noted (.ok ()))

def losePacket (w : World) (k : ℕ) : World :=
  match w.sent[k]? with
  | none => w
  | some frames =>
    { w with
      sent := w.sent.eraseIdx k
      lost := w.lost ++ frames
      dropped := w.dropped ++ frames }

/-- The probe timer has expired: the frames of the `k`th packet are to be sent again, and it stays
in flight. -/
def probePacket (w : World) (k : ℕ) : World :=
  match w.sent[k]? with
  | none => w
  | some frames => { w with lost := w.lost ++ frames }

def handleLost (w : World) : World :=
  { w with map := w.lost.foldl StreamMap.loseFrame w.map, lost := [] }

def step (w : World) : Op → Exec (World × Outcome)
  | .streamNew bidi urgency incremental => .ok (w.streamNew bidi urgency incremental)
  | .setPriority streamId urgency incremental =>
    let (map, r) := w.map.streamSetPriority streamId urgency incremental
    .ok ({ w with map := map }, .noted r)
  | .setContext streamId =>
    let (map, r) := w.map.streamSetContext streamId
    .ok ({ w with map := map }, .noted r)
  | .read streamId cap => do
      let (map, r) ← w.map.streamRead streamId cap
      return ({ w with map := map }, .read r)
  | .write streamId data fin => do
      let (map, r) ← w.map.streamWrite streamId data fin
      return ({ w with map := map }, .wrote r)
  | .shutdown streamId direction err =>
    let (map, r) := w.map.streamShutdown streamId direction err
    .ok ({ w with map := map }, .noted r)
  | .writable streamId len => do
      let (map, r) ← w.map.streamWritable streamId len
      return ({ w with map := map }, .writable r)
  | .wantRead streamId want =>
    let (map, r) := w.map.wantRead streamId want
    .ok ({ w with map := map }, .noted r)
  | .wantWrite streamId want =>
    let (map, r) := w.map.wantWrite streamId want
    .ok ({ w with map := map }, .noted r)
  | .close => .ok ({ w with closing := true }, .noted (.ok ()))
  | .pollEvent => .ok ({ w with map := w.map.pollEvent }, .noted (.ok ()))
  | .receive frame => w.receive frame
  | .peerParams tp =>
    .ok ({ w with map := w.map.updatePeerStreamTransportParams tp }, .noted (.ok ()))
  | .sendPacket p => w.sendPacket p
  | .ackPacket k => w.ackPacket k
  | .losePacket k => .ok (w.losePacket k, .noted (.ok ()))
  | .probePacket k => .ok (w.probePacket k, .noted (.ok ()))
  | .handleLost => .ok (w.handleLost, .noted (.ok ()))

end World

end StreamMap

end Tquic
