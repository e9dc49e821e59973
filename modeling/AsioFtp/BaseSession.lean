-- The state of a session and its file transfers (src/ftp/base_session.cpp, with the
-- functions of Asio that both session classes call). A call that starts an asynchronous
-- operation counts it as outstanding, and the operation ends in a later event.
import AsioFtp.Listing
import AsioFtp.Users

namespace asio_ftp.base_session

open helpers fs_objects listing

/-! ## The constants -/

inductive CONNECTION_STAGE
  | UNAUTHENTICATED
  | LOGGED_IN
  deriving DecidableEq

def MESSAGE_BUFFER_SIZE : Nat := 512

def RECEIVE_BUFFER_SIZE : Nat := 1024 * 512

def SEND_BUFFER_SIZE : Nat := 1024 * 512

def FTP_COMMANDS : List Bytes :=
  [lit "USER", lit "PASS", lit "SYST", lit "QUIT", lit "PWD", lit "TYPE", lit "PASV", lit "LIST",
    lit "FEAT", lit "CDUP", lit "CWD", lit "MKD", lit "RMD", lit "DELE", lit "STOR", lit "RETR",
    lit "SIZE", lit "PBSZ", lit "PROT", lit "OPTS"]

/-! ## The file streams -/

/-- An `std::ofstream` of a file `data/<id>`. In append mode each write goes to the end. Bytes that
its own buffer keeps are not in the file. -/
structure OFStream where
  id : Bytes
  app : Bool
  pos : Nat
  is_open : Bool
  failbit : Bool
  buffered : Bytes := []

/-- An `std::ifstream` of a file `data/<id>`. The content is what the file held at the open,
which the stream still reads after the file is removed. -/
structure IFStream where
  id : Bytes
  content : Bytes
  pos : Nat
  is_open : Bool
  eofbit : Bool
  failbit : Bool

/-- What the outside decides in one step: the value of `generate_uuid_string(64)`, the time,
whether the file system lets a file be opened, how many bytes the disk takes from a write, and from
the write at a close (`none` for all), after how many bytes a read of a file fails (`none` for
never), and whether the buffer of a stream, which has some bytes, keeps some more. -/
structure Env where
  uuid : Uuid
  now : Bytes
  opens : Bool
  disk_takes : Option Nat
  close_takes : Option Nat
  disk_fails : Option Nat
  keeps : Nat → Nat → Bool

/-- The content after `bytes` are written at `pos`. A hole is filled with NULs. -/
def writeAt (content : Bytes) (pos : Nat) (bytes : Bytes) : Bytes :=
  if bytes = [] then content
  else
    content.take pos ++ List.replicate (pos - content.length) 0 ++ bytes ++
      content.drop (pos + bytes.length)

/-- `stream << &buffer`: the stream, the bytes that reach its file, and the bytes that stay in the
buffer. The buffer of the stream keeps what is given, or all that is there goes to the disk, and
what the disk does not take stays where it was. The stream fails when it takes no byte. -/
def OFStream.insert (f : OFStream) (env : Env) (buffer : Bytes) : OFStream × Bytes × Bytes :=
  if f.is_open = false ∨ f.failbit = true ∨ buffer = [] then ({ f with failbit := true }, [], buffer)
  else if env.keeps f.buffered.length buffer.length then
    ({ f with buffered := f.buffered ++ buffer }, [], [])
  else
    let out := f.buffered ++ buffer
    let n := min (env.disk_takes.getD out.length) out.length
    ({ f with pos := f.pos + n, buffered := f.buffered.drop n,
              failbit := decide (n ≤ f.buffered.length) },
      out.take n, buffer.drop (n - f.buffered.length))

/-- `stream.close()`: the bytes that reach the file of those that the stream still has. -/
def OFStream.close (f : OFStream) (env : Env) : Bytes :=
  f.buffered.take (env.close_takes.getD f.buffered.length)

/-- `stream.read(buffer, n)`: the stream and the bytes that `gcount()` counts. A stream that
is not good gives nothing and never reaches the end of the file. -/
def IFStream.read (f : IFStream) (content : Bytes) (n : Nat) (fails : Option Nat) :
    IFStream × Bytes :=
  if f.is_open = false ∨ f.eofbit = true ∨ f.failbit = true then ({ f with failbit := true }, [])
  else
    -- The empty id names the directory `data/` itself: it opens, and no read of it succeeds.
    let fails := if f.id = [] then some 0 else fails
    let rest := content.drop f.pos
    match fails with
    | some k =>
      let chunk := rest.take (min k n)
      ({ f with pos := f.pos + chunk.length, failbit := true }, chunk)
    | none =>
      let chunk := rest.take n
      ({ f with pos := f.pos + chunk.length, eofbit := decide (rest.length < n),
                failbit := decide (rest.length < n) }, chunk)

/-! ## The session -/

inductive ErrorCode
  | success
  | eof
  | broken_pipe
  | operation_aborted
  | other
  deriving DecidableEq

/-- `ftp::session` or `ftps::secure_session`. -/
inductive SessionClass
  | session
  | secure_session
  deriving DecidableEq

/-- The operations on the data socket that move the bytes of a transfer. -/
inductive DataOp
  | data_send
  | data_async_receive
  | data_async_send
  deriving DecidableEq

/-- An operation of the data socket that has not ended, and the connection that it uses. -/
structure Outstanding where
  op : DataOp
  connection : Nat
  deriving DecidableEq

structure Session where
  session_class : SessionClass
  m_connection_stage : CONNECTION_STAGE := .UNAUTHENTICATED
  m_pending_directory_list : Bytes := []
  m_pending_directory_list_all : Bool := false
  m_pending_write_file : Bytes := []
  m_sendable_file_id : Bytes := []
  m_users_table : users.Table
  m_fs_objects_table : Store
  m_userid : Bytes := []
  m_username : Bytes := []
  m_working_directory : Bytes := [slash]
  m_directory_list : Bytes := []
  m_receive_buffer : Bytes := []
  m_receive_file_name : Bytes := []
  m_receive_file_path : Bytes := []
  m_received_file_size : Int := 0
  m_receive_file_stream : Option OFStream := none
  m_send_buffer : Bytes := []
  m_send_file_stream : Option IFStream := none
  /-- The address of the control socket and the port of the data acceptor. -/
  local_address : Bytes := []
  acceptor_port : Nat := 7000
  /-- `m_data_socket`: whether it is open, and which accepted connection it holds. -/
  data_socket_open : Bool := false
  data_connection : Nat := 0
  /-- The replies so far, and the operations on the control connection that have not ended. -/
  sent : List Bytes := []
  control_reads : Nat := 0
  control_writes : Nat := 0
  control_closed : Bool := false
  /-- The accepts, data handshakes, data shutdowns and data transfers that have not ended. -/
  accepts : Nat := 0
  data_handshakes : Nat := 0
  data_shutdowns : Nat := 0
  data_ops : List Outstanding := []
  /-- The start-up of a TLS session: the operations on the plain socket and the handshakes
  that have not ended, and whether a handshake succeeded. -/
  timer_waits : Nat := 0
  probe_reads : Nat := 0
  probe_writes : Nat := 0
  control_handshakes : List Bool := []
  tls : Bool := false
  /-- The process read through a null pointer or past the end of a vector. -/
  crashed : Bool := false

namespace Session

/-! ## The calls into Asio -/

def crash (s : Session) : Session := { s with crashed := true }

def control_send (s : Session) (message : Bytes) : Session :=
  { s with sent := s.sent ++ [message ++ crlf], control_writes := s.control_writes + 1 }

def control_receive (s : Session) : Session := { s with control_reads := s.control_reads + 1 }

/-- The two calls that most exits of `handle_command` make. -/
def reply (s : Session) (message : Bytes) : Session := (s.control_send message).control_receive

def control_close (s : Session) : Session := { s with control_closed := true }

def data_acceptor_start_accept (s : Session) : Session := { s with accepts := s.accepts + 1 }

/-- The data operation `op` starts on the connection that the socket holds. -/
def start (s : Session) (op : DataOp) : Session :=
  { s with data_ops := s.data_ops ++ [⟨op, s.data_connection⟩] }

/-- The write of `m_directory_list`. -/
def data_send (s : Session) : Session := s.start .data_send

def data_async_receive (s : Session) : Session := s.start .data_async_receive

/-- A read of the file and the write of what it gave. -/
def data_async_send (env : Env) (s : Session) : Session :=
  match s.m_send_file_stream with
  | none => s.crash
  | some f =>
    let (f', chunk) := f.read ((s.m_fs_objects_table.blobs f.id).getD f.content) SEND_BUFFER_SIZE
      env.disk_fails
    { s with m_send_file_stream := some f', m_send_buffer := chunk }.start .data_async_send

/-- The plain session closes the socket at once, and the TLS session starts a shutdown, whose
end closes it. -/
def data_close (s : Session) : Session :=
  if s.data_socket_open = false then s
  else
    match s.session_class with
    | .session => { s with data_socket_open := false }
    | .secure_session => { s with data_shutdowns := s.data_shutdowns + 1 }

/-! ## The listing -/

def data_directory_listing (s : Session) : Session :=
  { s with
    m_directory_list := create_directory_list
      (get_objects_by_path s.m_fs_objects_table.table s.m_userid s.m_pending_directory_list)
      s.m_username s.m_pending_directory_list_all }.data_send

def handle_data_send_callback (s : Session) (ec : ErrorCode) : Session :=
  if ec ≠ .success then s
  else
    ({ s with m_pending_directory_list := [], m_pending_directory_list_all := false }.control_send
      (lit "226 Transferred.")).data_close

/-! ## The upload -/

/-- The file `data/<id>` is opened for writing: to append, or from the start and empty. -/
def openBlob (st : Store) (id : Bytes) (app : Bool) : Store :=
  { st with blobs := fun i =>
      if i = id then some (if app then (st.blobs id).getD [] else []) else st.blobs i }

/-- Bytes that a stream took reach its file, unless the file was removed. -/
def writeBlob (st : Store) (f : OFStream) (bytes : Bytes) : Store :=
  { st with blobs := fun i =>
      if i = f.id then (st.blobs i).map (fun c => writeAt c (if f.app then c.length else f.pos) bytes)
      else st.blobs i }

/-- A stream that is closed, or destroyed, writes what it still has. Nobody asks if that fails. -/
def closeBlob (env : Env) (st : Store) (f : OFStream) : Store := writeBlob st f (f.close env)

/-- The path and the name that an upload takes from the pending file. -/
def object_of_write_file (write_file : Bytes) : Bytes × Bytes :=
  (get_parent_path write_file, get_basename write_file)

/-- The file of an upload, as the lookup and the create give it: the store after them, the id of
the blob, whether it is opened to append, and the size that the counter starts with. -/
structure Target where
  store : Store
  id : Bytes
  app : Bool
  size : Int

def receiveTarget (env : Env) (s : Session) : Target :=
  let (path, name) := object_of_write_file s.m_pending_write_file
  let object := get_object s.m_fs_objects_table.table s.m_userid name path
  if object.id = [] then
    let created := create_object s.m_fs_objects_table env.uuid env.now s.m_userid name path 0 false
    { store := created.1, id := created.2, app := true, size := 0 }
  else { store := s.m_fs_objects_table, id := object.id, app := false, size := stoll object.size }

/-- The file `data/<id>` of the upload opens. Without an id it would be the directory, which
does not. -/
def receiveOpens (env : Env) (s : Session) : Bool :=
  decide ((s.receiveTarget env).id ≠ []) && env.opens

def openReceiveFile (env : Env) (s : Session) : Session :=
  let target := s.receiveTarget env
  let is_open := s.receiveOpens env
  let store := if is_open then openBlob target.store target.id target.app else target.store
  { s with
    m_receive_file_path := (object_of_write_file s.m_pending_write_file).1
    m_receive_file_name := (object_of_write_file s.m_pending_write_file).2
    m_received_file_size := target.size
    -- A stream that is still there goes when the new one takes its place.
    m_fs_objects_table := s.m_receive_file_stream.elim store (closeBlob env store)
    m_receive_file_stream :=
      some { id := target.id, app := target.app, pos := 0, is_open, failbit := !is_open } }

def data_receive_file (env : Env) (s : Session) : Session :=
  if s.receiveOpens env = false then (s.openReceiveFile env).data_close
  else (s.openReceiveFile env).data_async_receive

def data_async_receive_end (env : Env) (s : Session) : Session :=
  match s.m_receive_file_stream with
  | none => s.crash
  | some f =>
    let store := (update_object_size (closeBlob env s.m_fs_objects_table f) env.now s.m_userid
      s.m_receive_file_name s.m_receive_file_path s.m_received_file_size).1
    ({ s with
      m_receive_file_stream := none
      m_fs_objects_table := store
      m_pending_write_file := [] }.control_send (lit "226 Received.")).data_close

/-- `*m_receive_file_stream << &m_receive_buffer`. -/
def writeReceived (env : Env) (s : Session) (f : OFStream) : Session :=
  let (f', taken, left) := f.insert env s.m_receive_buffer
  { s with
    m_receive_file_stream := some f'
    m_fs_objects_table := writeBlob s.m_fs_objects_table f taken
    m_receive_buffer := left }

/-- The counter grows, and the stream `f` takes what the read gave, if it gave any. -/
def absorb (env : Env) (s : Session) (f : OFStream) (bytes_read : Nat) : Session :=
  let s := { s with m_received_file_size := s.m_received_file_size + bytes_read }
  if bytes_read > 0 then s.writeReceived env f else s

def handle_data_async_receive_callback (env : Env) (s : Session) (ec : ErrorCode)
    (bytes_read : Nat) : Session :=
  match s.m_receive_file_stream with
  | none => s.crash
  | some f =>
    let s := s.absorb env f bytes_read
    if (s.m_receive_file_stream.map (·.failbit)).getD true then s.data_async_receive_end env
    else if ec = .eof then s.data_async_receive_end env
    else if ec ≠ .success then s.data_async_receive_end env
    else s.data_async_receive

/-! ## The download -/

/-- The file `data/<id>` of a download opens. Without an id it is the directory, which does. -/
def sendOpens (env : Env) (s : Session) (id : Bytes) : Bool :=
  (decide (id = []) || (s.m_fs_objects_table.blobs id).isSome) && env.opens

def openSendFile (env : Env) (s : Session) : Session :=
  let id := s.m_sendable_file_id
  let is_open := s.sendOpens env id
  { s with
    m_send_file_stream := some
      { id, content := (s.m_fs_objects_table.blobs id).getD [], pos := 0, is_open, eofbit := false,
        failbit := !is_open } }

def data_send_file (env : Env) (s : Session) : Session :=
  if s.sendOpens env s.m_sendable_file_id = false then (s.openSendFile env).data_close
  else (s.openSendFile env).data_async_send env

def data_async_send_end (s : Session) : Session :=
  match s.m_send_file_stream with
  | none => s.crash
  | some _ =>
    ({ s with m_send_file_stream := none, m_sendable_file_id := [] }.control_send
      (lit "226 Sent.")).data_close

def handle_data_async_send_callback (env : Env) (s : Session) (ec : ErrorCode) : Session :=
  match s.m_send_file_stream with
  | none => s.crash
  | some f =>
    if f.eofbit = true then s.data_async_send_end
    else if ec = .broken_pipe then s.data_async_send_end
    else if ec ≠ .success then s.data_async_send_end
    else s.data_async_send env

/-! ## The data connection -/

/-- The handler of an accept (of the data handshake, in a TLS session) picks the pending work. -/
def takeUpWork (env : Env) (s : Session) : Session :=
  if s.m_pending_directory_list ≠ [] then s.data_directory_listing
  else if s.m_pending_write_file ≠ [] then s.data_receive_file env
  else if s.m_sendable_file_id ≠ [] then s.data_send_file env
  else s

def handle_accept (env : Env) (s : Session) (ec : ErrorCode) : Session :=
  if ec ≠ .success then s
  else
    let s := { s with data_socket_open := true, data_connection := s.data_connection + 1 }
    match s.session_class with
    | .session => s.takeUpWork env
    | .secure_session => { s with data_handshakes := s.data_handshakes + 1 }

def handle_data_handshake (env : Env) (s : Session) (ec : ErrorCode) : Session :=
  if ec ≠ .success then s else s.takeUpWork env

/-- Every exit of the shutdown handler closes the socket. -/
def handle_data_shutdown (s : Session) : Session := { s with data_socket_open := false }

end Session

end asio_ftp.base_session
