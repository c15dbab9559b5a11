import Sponge.TCP.Connection

/-! The summary of a connection and the official states it is compared with. -/
namespace Sponge

inductive TCPReceiverStateSummary where
  | error
  | listen
  | synRecv
  | finRecv
deriving DecidableEq, Repr

inductive TCPSenderStateSummary where
  | error
  | closed
  | synSent
  | synAcked
  | finSent
  | finAcked
deriving DecidableEq, Repr

structure TCPState where
  sender : TCPSenderStateSummary
  receiver : TCPReceiverStateSummary
  active : Bool := true
  lingerAfterStreamsFinish : Bool := true
deriving DecidableEq, Repr

namespace TCPState

inductive State where
  | listen
  | synRcvd
  | synSent
  | established
  | closeWait
  | lastAck
  | finWait1
  | finWait2
  | closing
  | timeWait
  | closed
  | reset
deriving DecidableEq, Repr

def ofState : State → TCPState
  | .listen => { receiver := .listen, sender := .closed }
  | .synRcvd => { receiver := .synRecv, sender := .synSent }
  | .synSent => { receiver := .listen, sender := .synSent }
  | .established => { receiver := .synRecv, sender := .synAcked }
  | .closeWait => { receiver := .finRecv, sender := .synAcked, lingerAfterStreamsFinish := false }
  | .lastAck => { receiver := .finRecv, sender := .finSent, lingerAfterStreamsFinish := false }
  | .closing => { receiver := .finRecv, sender := .finSent }
  | .finWait1 => { receiver := .synRecv, sender := .finSent }
  | .finWait2 => { receiver := .synRecv, sender := .finAcked }
  | .timeWait => { receiver := .finRecv, sender := .finAcked }
  | .reset => { receiver := .error, sender := .error, lingerAfterStreamsFinish := false, active := false }
  | .closed =>
    { receiver := .finRecv, sender := .finAcked, lingerAfterStreamsFinish := false, active := false }

def receiverSummary (r : TCPReceiver) : TCPReceiverStateSummary :=
  if r.streamOut.error then .error
  else if r.ackno.isNone then .listen
  else if r.streamOut.inputEnded then .finRecv
  else .synRecv

def senderSummary (s : TCPSender) : TCPSenderStateSummary :=
  if s.stream.error then .error
  else if s.nextSeqno = 0 then .closed
  else if s.nextSeqno = s.bytesInFlight then .synSent
  else if s.stream.eof = false then .synAcked
  else if s.nextSeqno < s.stream.bytesWritten + 2 then .synAcked
  else if s.bytesInFlight ≠ 0 then .finSent
  else .finAcked

def of (s : TCPSender) (r : TCPReceiver) (active linger : Bool) : TCPState where
  sender := senderSummary s
  receiver := receiverSummary r
  active := active
  lingerAfterStreamsFinish := if active then linger else false

end TCPState

def TCPConnection.state (c : TCPConnection) : TCPState :=
  .of c.sender c.receiver c.active c.lingerAfterStreamsFinish

end Sponge
