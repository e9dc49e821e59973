-- The control channel of a session: a read becomes a command, and the command its handler
-- (src/ftp/base_session.cpp, and the run_ functions of src/ftp/insecure_session.cpp and
-- src/ftp/secure_session.cpp, whose texts are the same).
import AsioFtp.BaseSession

namespace asio_ftp.base_session

open helpers fs_objects

/-! ## Reading a command -/

/-- The last two bytes are dropped, whatever they are. `received` has more than two bytes, so
`splitted` is not empty. -/
def parse_buffer (received : Bytes) : Bytes × Bytes :=
  let splitted := string_split (received.take (received.length - 2)) (lit " ")
  (string_to_uppercase (splitted.headD []), string_join splitted.tail (lit " "))

def handle_control_receive_callback (ec : ErrorCode) (received : Bytes) : Bytes × Bytes :=
  if ec ≠ .success then ([], [])
  else if received.length ≤ 2 then ([], [])
  else parse_buffer received

namespace Session

/-! ## The login -/

def handle_USER (s : Session) (argument : Bytes) : Session :=
  if argument = [] then s.reply (lit "530 Invalid username.")
  else
    let uid := users.get_id_by_name s.m_users_table argument
    if uid = [] then s.reply (lit "530 Invalid username.")
    else
      { s with m_userid := uid, m_username := argument }.reply
        (lit "331 Username okay, password needed.")

def handle_PASS (s : Session) (argument : Bytes) : Session :=
  if s.m_userid = [] then s.reply (lit "530 User not found.")
  else if users.check_password s.m_users_table s.m_userid argument then
    { s with m_connection_stage := .LOGGED_IN }.reply (lit "230 Logged in.")
  else s.reply (lit "530 Wrong password.")

/-! ## The directories -/

def handle_CDUP (s : Session) : Session :=
  { s with m_working_directory := get_parent_path s.m_working_directory }.reply (lit "250 Okay.")

/-- Where the walk of CWD begins, and the parts that it walks through. -/
def cwdStart (s : Session) (argument : Bytes) : Bytes × List Bytes :=
  if argument[0]? = some slash then (lit "/", (string_split argument (lit "/")).tail)
  else (s.m_working_directory, string_split argument (lit "/"))

/-- Each part after the first is looked up below the parts before it. The result is the path
of the last part's directory, and the last part. -/
def cwdLoop (s : Session) (object_path : Bytes) : List Bytes → Option (Bytes × Bytes)
  | [] => none
  | [last] => some (object_path, last)
  | part :: next :: rest =>
    let object_path := object_path ++ lit "/" ++ part
    if (get_object s.m_fs_objects_table.table s.m_userid next object_path).id = [] then none
    else cwdLoop s object_path (next :: rest)

/-- The first part is looked up in `object_path`, whose '/' the loop adds back. -/
def cwdWalk (s : Session) (object_path first : Bytes) (path_segments : List Bytes) :
    Option (Bytes × Bytes) :=
  if (get_object s.m_fs_objects_table.table s.m_userid first object_path).id = [] then none
  else
    s.cwdLoop (if object_path = lit "/" then object_path.dropLast else object_path) path_segments

def handle_CWD (s : Session) (argument : Bytes) : Session :=
  if argument = [] then s.reply (lit "501 No arguments presented.")
  else if argument = lit ".." then
    { s with m_working_directory := get_parent_path s.m_working_directory }.reply
      (lit "250 Changed working directory.")
  else if argument = lit "/" then
    { s with m_working_directory := lit "/" }.reply (lit "250 Changed working directory.")
  else
    match (s.cwdStart argument).2 with
    | [] => s.crash
    | first :: rest =>
      match s.cwdWalk (s.cwdStart argument).1 first (first :: rest) with
      | none => s.reply (lit "550 No such file or directory.")
      | some (object_path, back) =>
        { s with
          m_working_directory :=
            (if object_path ≠ lit "/" then object_path ++ lit "/" else object_path) ++ back }.reply
          (lit "250 Changed working directory.")

/-! ## The objects -/

/-- The path and the name that MKD and DELE take from their argument. -/
def object_of_MKD (s : Session) (argument : Bytes) : Bytes × Bytes :=
  if (string_split argument (lit "/")).length = 1 then (s.m_working_directory, argument)
  else (get_parent_path (lit "/" ++ argument), get_basename argument)

def handle_MKD (env : Env) (s : Session) (argument : Bytes) : Session :=
  if argument = [] then s.reply (lit "501 No arguments presented.")
  else
    let (object_path, object_name) := s.object_of_MKD argument
    let (store, object_id) := create_object s.m_fs_objects_table env.uuid env.now s.m_userid
      object_name object_path 0 true
    { s with m_fs_objects_table := store }.reply
      (if object_id = [] then lit "250 Failed." else lit "250 Directory created.")

/-- RMD knows the absolute path too. -/
def object_of_RMD (s : Session) (argument : Bytes) : Bytes × Bytes :=
  if (string_split argument (lit "/")).length = 1 then (s.m_working_directory, argument)
  else if argument[0]? ≠ some slash then
    (get_parent_path (lit "/" ++ argument), get_basename argument)
  else (get_parent_path argument, get_basename argument)

/-- RMD and DELE differ in the object that they take from the argument. -/
def removeObject (s : Session) (argument : Bytes) (object : Bytes × Bytes) : Session :=
  if argument = [] then s.reply (lit "501 No arguments presented.")
  else
    { s with
      m_fs_objects_table :=
        (remove_fs_object s.m_fs_objects_table s.m_userid object.2 object.1).1 }.reply
      (lit "250 Deleted.")

def handle_RMD (s : Session) (argument : Bytes) : Session :=
  s.removeObject argument (s.object_of_RMD argument)

def handle_DELE (s : Session) (argument : Bytes) : Session :=
  s.removeObject argument (s.object_of_MKD argument)

/-- The path and the name that SIZE looks up. -/
def object_of_SIZE (argument : Bytes) : Bytes × Bytes :=
  (get_parent_path argument, get_basename argument)

/-- Neither exit reads the next command. -/
def handle_SIZE (s : Session) (argument : Bytes) : Session :=
  let (object_path, object_name) := object_of_SIZE argument
  let object := get_object s.m_fs_objects_table.table s.m_userid object_name object_path
  if object.id = [] then s.control_send (lit "550 File unavailable.")
  else s.control_send (lit "213 " ++ object.size)

/-- An unknown option gets no reply. -/
def handle_OPTS (s : Session) (argument : Bytes) : Session :=
  if argument = lit "UTF8 ON" then s.reply (lit "200 Enabled UTF-8 encoding.")
  else s.control_receive

/-! ## The transfers -/

def run_PASV (s : Session) : Session :=
  let port := s.acceptor_port
  s.reply (lit "227 Entering Passive Mode (" ++ string_replace s.local_address (lit ".") (lit ",") ++
    (lit "," ++ to_string (port / 256 : Nat) ++ lit "," ++ to_string (port % 256 : Nat) ++ lit ")"))

def set_pending_list (s : Session) (argument : Bytes) : Session :=
  { s with
    m_pending_directory_list := s.m_working_directory
    m_pending_directory_list_all :=
      if argument = lit "-la" then true else s.m_pending_directory_list_all }

/-- `run_LIST` once it set the pending listing. -/
def run_pending_LIST (s : Session) : Session :=
  if s.data_socket_open then
    (s.control_send (lit "150 Opening connection.")).data_directory_listing.control_receive
  else (s.reply (lit "150 Opening connection.")).data_acceptor_start_accept

def run_LIST (s : Session) (argument : Bytes) : Session :=
  if s.m_pending_directory_list ≠ [] then s else (s.set_pending_list argument).run_pending_LIST

/-- The path that STOR takes from its argument. -/
def write_file_of_STOR (s : Session) (argument : Bytes) : Bytes :=
  if argument[0]? ≠ some slash then
    if s.m_working_directory = lit "/" then s.m_working_directory ++ argument
    else s.m_working_directory ++ lit "/" ++ argument
  else argument

/-- The path and the name that an upload takes from the argument of STOR. -/
def object_of_STOR (s : Session) (argument : Bytes) : Bytes × Bytes :=
  object_of_write_file (s.write_file_of_STOR argument)

/-- The directory of an upload that is not in the root is not in the table. -/
def ParentMissing (s : Session) (path : Bytes) : Prop :=
  get_parent_path path ≠ lit "/" ∧
    (get_object s.m_fs_objects_table.table s.m_userid (get_basename (get_parent_path path))
      (get_parent_path (get_parent_path path))).id = []

instance (s : Session) (path : Bytes) : Decidable (s.ParentMissing path) :=
  inferInstanceAs (Decidable (_ ∧ _))

def set_pending_write (s : Session) (argument : Bytes) : Session :=
  { s with m_pending_write_file := s.write_file_of_STOR argument }

/-- `run_STOR` once it set the pending file, which stays set when its directory is missing. -/
def run_pending_STOR (env : Env) (s : Session) : Session :=
  if s.ParentMissing s.m_pending_write_file then s
  else if s.data_socket_open then
    ((s.control_send (lit "150 Opening connection.")).data_receive_file env).control_receive
  else (s.reply (lit "150 Waiting for connection")).data_acceptor_start_accept

def run_STOR (env : Env) (s : Session) (argument : Bytes) : Session :=
  if argument = [] then s.reply (lit "501 No arguments presented.")
  else if s.m_pending_write_file ≠ [] then s
  else (s.set_pending_write argument).run_pending_STOR env

/-- The path and the name that RETR takes from its argument. -/
def object_of_RETR (s : Session) (argument : Bytes) : Bytes × Bytes :=
  if (string_split argument (lit "/")).length = 1 then (s.m_working_directory, argument)
  else if string_starts_with argument (lit "/") then
    (get_parent_path argument, get_basename argument)
  else (get_parent_path (s.m_working_directory ++ argument), get_basename argument)

def parse_RETR_argument (s : Session) (argument : Bytes) : Session :=
  if argument = [] then s.reply (lit "501 No arguments presented.")
  else if s.m_sendable_file_id ≠ [] then s
  else
    let (object_path, object_name) := s.object_of_RETR argument
    let object := get_object s.m_fs_objects_table.table s.m_userid object_name object_path
    if object.id = [] then s.control_send (lit "550 File unavailable.")
    else { s with m_sendable_file_id := object.id }

/-- It runs after `parse_RETR_argument`, whatever that found. -/
def run_RETR (env : Env) (s : Session) : Session :=
  if s.data_socket_open then
    ((s.control_send (lit "150 Opening connection.")).data_send_file env).control_receive
  else (s.reply (lit "150 Waiting for connection")).data_acceptor_start_accept

/-! ## The dispatch -/

def features : Bytes :=
  lit "211-Features:" ++ crlf ++ lit " AUTH TLS" ++ crlf ++ lit " PASV" ++ crlf ++ lit " PBSZ" ++
    crlf ++ lit " PROT" ++ crlf ++ lit " UTF8" ++ crlf ++ lit "211 End"

/-- The commands after the login gate. -/
def handle_logged_in (env : Env) (s : Session) (command argument : Bytes) : Session :=
  if command = lit "PWD" then s.reply (lit "257 \"" ++ s.m_working_directory ++ lit "\"")
  else if command = lit "TYPE" then s.reply (lit "200 OK.")
  else if command = lit "PASV" then s.run_PASV
  else if command = lit "LIST" then s.run_LIST argument
  else if command = lit "FEAT" then s.reply features
  else if command = lit "PBSZ" then s.reply (lit "200 OK.")
  else if command = lit "PROT" then s.reply (lit "200 OK.")
  else if command = lit "OPTS" then s.handle_OPTS argument
  else if command = lit "CDUP" then s.handle_CDUP
  else if command = lit "CWD" then s.handle_CWD argument
  else if command = lit "MKD" then s.handle_MKD env argument
  else if command = lit "RMD" then s.handle_RMD argument
  else if command = lit "DELE" then s.handle_DELE argument
  else if command = lit "STOR" then s.run_STOR env argument
  else if command = lit "RETR" then (s.parse_RETR_argument argument).run_RETR env
  else if command = lit "SIZE" then s.handle_SIZE argument
  else s

def handle_command (env : Env) (s : Session) (command argument : Bytes) : Session :=
  if command = [] then s
  else if command ∉ FTP_COMMANDS then s.reply (lit "502 Command not implemented.")
  else if command = lit "USER" then s.handle_USER argument
  else if command = lit "PASS" then s.handle_PASS argument
  else if command = lit "SYST" then s.reply (lit "215 UNIX Type: L8")
  else if command = lit "QUIT" then
    (s.control_send (lit "221 Closing control connection.")).control_close
  else if s.m_connection_stage ≠ .LOGGED_IN then s.reply (lit "530 Not logged in.")
  else s.handle_logged_in env command argument

end Session

end asio_ftp.base_session
