import Tquic.Stream.StreamMap

/-!
# Configuration of the receive limits

The part of the configuration that the streams of a connection start from. Every setter caps its
value; the caps of the initial limits are the windows as they are when the setter is called.
-/

namespace Tquic

structure ReceiveConfig where
  localTransportParams : StreamTransportParams
  maxConnectionWindow : ℕ
  maxStreamWindow : ℕ
  params_encodable : localTransportParams.Encodable
  connection_le : maxConnectionWindow ≤ vintMax
  stream_le : maxStreamWindow ≤ vintMax

namespace ReceiveConfig

def new : ReceiveConfig where
  localTransportParams :=
    { initialMaxData := 10485760
      initialMaxStreamDataBidiLocal := 5242880
      initialMaxStreamDataBidiRemote := 2097152
      initialMaxStreamDataUni := 1048576
      initialMaxStreamsBidi := 200
      initialMaxStreamsUni := 100 }
  maxConnectionWindow := 15 * 1024 * 1024
  maxStreamWindow := 6 * 1024 * 1024
  params_encodable := by constructor <;> decide
  connection_le := by decide
  stream_le := by decide

variable (c : ReceiveConfig) (v : ℕ)

def setInitialMaxData : ReceiveConfig :=
  { c with
    localTransportParams :=
      { c.localTransportParams with initialMaxData := min v c.maxConnectionWindow }
    params_encodable :=
      { c.params_encodable with data := (min_le_right _ _).trans c.connection_le } }

def setInitialMaxStreamDataBidiLocal : ReceiveConfig :=
  { c with
    localTransportParams :=
      { c.localTransportParams with initialMaxStreamDataBidiLocal := min v c.maxStreamWindow }
    params_encodable :=
      { c.params_encodable with bidiLocal := (min_le_right _ _).trans c.stream_le } }

def setInitialMaxStreamDataBidiRemote : ReceiveConfig :=
  { c with
    localTransportParams :=
      { c.localTransportParams with initialMaxStreamDataBidiRemote := min v c.maxStreamWindow }
    params_encodable :=
      { c.params_encodable with bidiRemote := (min_le_right _ _).trans c.stream_le } }

def setInitialMaxStreamDataUni : ReceiveConfig :=
  { c with
    localTransportParams :=
      { c.localTransportParams with initialMaxStreamDataUni := min v c.maxStreamWindow }
    params_encodable := { c.params_encodable with uni := (min_le_right _ _).trans c.stream_le } }

def setInitialMaxStreamsBidi : ReceiveConfig :=
  { c with
    localTransportParams := { c.localTransportParams with initialMaxStreamsBidi := min v vintMax }
    params_encodable := { c.params_encodable with streamsBidi := min_le_right _ _ } }

def setInitialMaxStreamsUni : ReceiveConfig :=
  { c with
    localTransportParams := { c.localTransportParams with initialMaxStreamsUni := min v vintMax }
    params_encodable := { c.params_encodable with streamsUni := min_le_right _ _ } }

def setMaxConnectionWindow : ReceiveConfig :=
  { c with
    maxConnectionWindow := min v vintMax
    connection_le := min_le_right _ _ }

def setMaxStreamWindow : ReceiveConfig :=
  { c with
    maxStreamWindow := min v vintMax
    stream_le := min_le_right _ _ }

end ReceiveConfig

end Tquic
