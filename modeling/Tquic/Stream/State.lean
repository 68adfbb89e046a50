import Tquic.Stream.RecvBuf
import Tquic.Stream.SendBuf

/-!
# The state of one stream

A stream has a receive buffer and a send buffer, of which a unidirectional stream
uses one.
-/

namespace Tquic

structure Stream where
  bidi : Bool
  isLocal : Bool
  urgency : ℕ
  incremental : Bool
  recv : RecvBuf
  send : SendBuf
  writeThresh : ℕ
  wantRead : Bool
  wantWrite : Bool
  closed : Bool

namespace Stream

def new (bidi isLocal : Bool) (maxTxData maxRxData maxWindow : ℕ) : Stream where
  bidi := bidi
  isLocal := isLocal
  urgency := 127
  incremental := true
  recv := RecvBuf.new maxRxData maxWindow
  send := SendBuf.new maxTxData
  writeThresh := 1
  wantRead := bidi || !isLocal
  wantWrite := bidi || isLocal
  closed := false

def isReadable (s : Stream) : Bool := s.recv.ready

def isWritable (s : Stream) : Bool :=
  !s.send.isFin && !s.send.shutdown && s.send.writeOff + s.writeThresh ≤ s.send.maxData

def isSendable (s : Stream) : Bool := s.send.ready

def isComplete (s : Stream) : Bool :=
  match s.bidi, s.isLocal with
  | true, _ => s.send.isComplete && s.recv.isComplete
  | false, true => s.send.isComplete
  | false, false => s.recv.isComplete

def isDraining (s : Stream) : Bool := s.recv.shutdown

def markWantwrite (s : Stream) (flag : Bool) : Stream × Result Unit :=
  if !s.bidi && !s.isLocal then (s, .error .internalError)
  else ({ s with wantWrite := flag }, .ok ())

def markWantread (s : Stream) (flag : Bool) : Stream × Result Unit :=
  if !s.bidi && s.isLocal then (s, .error .internalError)
  else ({ s with wantRead := flag }, .ok ())

def markClosed (s : Stream) : Stream := { s with closed := true }

end Stream

end Tquic
