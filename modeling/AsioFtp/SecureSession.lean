-- How a session begins (`start` in src/ftp/insecure_session.cpp, and in
-- src/ftp/secure_session.cpp the wait for a ClientHello, the AUTH command and the handshake).
import AsioFtp.Commands

namespace asio_ftp.base_session

namespace Session

/-! ## The plain session -/

def startPlain (s : Session) : Session :=
  { s with m_connection_stage := .UNAUTHENTICATED }.reply
    (lit "220 Welcome. This connection is not secure")

/-! ## The TLS session -/

def IMPLICIT_TIMEOUT_MS : Nat := 500

def probe_send (s : Session) (message : Bytes) : Session :=
  { s with sent := s.sent ++ [message ++ crlf], probe_writes := s.probe_writes + 1 }

def probe_receive (s : Session) : Session := { s with probe_reads := s.probe_reads + 1 }

/-- The handshake of the control connection starts, whatever is outstanding on it. -/
def start_secure (s : Session) (is_implicit : Bool) : Session :=
  { s with control_handshakes := s.control_handshakes ++ [is_implicit] }

/-- `lap` is the time of the stopwatch and `available` counts the bytes that wait on the
socket. -/
def wait_for_implicit (s : Session) (lap available : Nat) : Session :=
  if lap > IMPLICIT_TIMEOUT_MS then
    (s.probe_send (lit "220 Welcome. Encryption required.")).probe_receive
  else if available > 100 then s.start_secure true
  else { s with timer_waits := s.timer_waits + 1 }

def handle_auth (s : Session) (command argument : Bytes) : Session :=
  if command ≠ lit "AUTH" then (s.probe_send (lit "503 Not AUTH.")).probe_receive
  else if argument ≠ lit "TLS" ∧ argument ≠ lit "SSL" then
    (s.probe_send (lit "502 Not supported.")).probe_receive
  else (s.probe_send (lit "234 Proceed.")).start_secure false

/-- A client in implicit mode gets the welcome message only now. -/
def handle_handshake (s : Session) (ec : ErrorCode) (is_implicit : Bool) : Session :=
  if ec ≠ .success then s
  else
    let s :=
      if is_implicit then s.control_send (lit "220 Welcome. Encryption required.") else s
    { s with m_connection_stage := .UNAUTHENTICATED, tls := true }.control_receive

def start_session (s : Session) (lap available : Nat) : Session :=
  match s.session_class with
  | .session => s.startPlain
  | .secure_session => s.wait_for_implicit lap available

end Session

end asio_ftp.base_session
