-- The law of the refused transfers: LIST, STOR and RETR check their argument beside the changes
-- that they make, and a check that fails mostly stops neither the changes nor the answer 150.
import AsioFtp.Transfers
import AsioFtp.Walks

namespace asio_ftp.refusals

open helpers fs_objects walks base_session base_session.Session

/-! ## Which transfers cannot be served -/

/-- STOR has no directory of the user for its file. The root is always there. -/
def NoDirectory (s : Session) (argument : Bytes) : Prop :=
  let directory := get_parent_path (s.write_file_of_STOR argument)
  directory ≠ lit "/" ∧ ¬ Directory s.m_fs_objects_table.table s.m_userid
    (get_parent_path directory) (get_basename directory)

/-- RETR has no file of the user with the path and the name that it reads from its argument. -/
def NoFile (s : Session) (argument : Bytes) : Prop :=
  ∀ r ∈ s.m_fs_objects_table.table.rows, r.user_id = s.m_userid →
    (r.path, r.name) = s.object_of_RETR argument → r.is_directory = true

instance (s : Session) (a : Bytes) : Decidable (NoDirectory s a) :=
  inferInstanceAs (Decidable (_ ∧ _))

instance (s : Session) (a : Bytes) : Decidable (NoFile s a) :=
  inferInstanceAs (Decidable (∀ r ∈ s.m_fs_objects_table.table.rows, _))

/-- The transfers that a session has to refuse. -/
def CannotBeServed (s : Session) (command argument : Bytes) : Prop :=
  command = lit "LIST" ∧ s.m_pending_directory_list ≠ [] ∨
  command = lit "STOR" ∧
    (argument = [] ∨ s.m_pending_write_file ≠ [] ∨ NoDirectory s argument) ∨
  command = lit "RETR" ∧ (argument = [] ∨ s.m_sendable_file_id ≠ [] ∨ NoFile s argument)

instance (s : Session) (c a : Bytes) : Decidable (CannotBeServed s c a) :=
  inferInstanceAs (Decidable (_ ∨ _))

/-- A reply of class 4xx or 5xx. -/
def Negative (message : Bytes) : Prop :=
  message.head? = (lit "4").head? ∨ message.head? = (lit "5").head?

/-- The session refuses a transfer: one negative reply, and no other effect. -/
structure Refused (s t : Session) : Prop where
  reply : ∃ m, t.sent = s.sent ++ [m] ∧ Negative m
  list : t.m_pending_directory_list = s.m_pending_directory_list
  write : t.m_pending_write_file = s.m_pending_write_file
  send : t.m_sendable_file_id = s.m_sendable_file_id
  receive_stream : t.m_receive_file_stream = s.m_receive_file_stream
  send_stream : t.m_send_file_stream = s.m_send_file_stream
  accepts : t.accepts = s.accepts
  data_ops : t.data_ops = s.data_ops

/-! ## What the commands answer -/

section
variable {env : Env} {s t : Session} {a : Bytes}

theorem not_refused_of_silent (h : t.sent = s.sent) : ¬ Refused s t := by
  intro hr
  obtain ⟨m, hm, -⟩ := hr.reply
  rw [h] at hm
  simp at hm

/-- The last reply is a 150. -/
def Opens (t : Session) : Prop :=
  ∃ before, t.sent = before ++ [lit "150 Opening connection." ++ crlf] ∨
    t.sent = before ++ [lit "150 Waiting for connection" ++ crlf]

theorem not_refused_of_opens (h : Opens t) : ¬ Refused s t := by
  intro hr
  obtain ⟨m, hm, hneg⟩ := hr.reply
  obtain ⟨before, h | h⟩ := h
  · rw [h] at hm
    obtain ⟨-, rfl⟩ := List.append_singleton_inj.mp hm
    exact absurd hneg (by unfold Negative; decide)
  · rw [h] at hm
    obtain ⟨-, rfl⟩ := List.append_singleton_inj.mp hm
    exact absurd hneg (by unfold Negative; decide)

/-- RETR goes on to its 150, whatever the parse of its argument found. -/
theorem run_RETR_opens (env : Env) (s : Session) : Opens (s.run_RETR env) := by
  unfold run_RETR
  split
  · refine ⟨s.sent, Or.inl ?_⟩
    exact congrArg Front.sent
      ((s.control_send (lit "150 Opening connection.")).front_data_send_file env)
  · exact ⟨s.sent, Or.inr rfl⟩

/-- A STOR that is not stopped by its marker or by a missing directory goes on to its 150. -/
theorem run_pending_STOR_opens (env : Env) (s : Session)
    (h : ¬ s.ParentMissing s.m_pending_write_file) : Opens (s.run_pending_STOR env) := by
  unfold run_pending_STOR
  rw [if_neg h]
  split
  · refine ⟨s.sent, Or.inl ?_⟩
    exact congrArg Front.sent
      ((s.control_send (lit "150 Opening connection.")).front_data_receive_file env)
  · exact ⟨s.sent, Or.inr rfl⟩

/-- A missing directory stops STOR without a word, and its marker stays. -/
theorem not_refused_of_STOR (ha : a ≠ []) : ¬ Refused s (s.run_STOR env a) := by
  unfold run_STOR
  rw [if_neg ha]
  split
  · exact not_refused_of_silent rfl
  · by_cases hm : (s.set_pending_write a).ParentMissing (s.set_pending_write a).m_pending_write_file
    · rw [run_pending_STOR_of_missing env _ hm]
      exact not_refused_of_silent rfl
    · exact not_refused_of_opens (run_pending_STOR_opens env _ hm)

theorem refused_of_STOR : Refused s (s.run_STOR env []) :=
  ⟨⟨_, rfl, Or.inr rfl⟩, rfl, rfl, rfl, rfl, rfl, rfl, rfl⟩

end

/-! ## The law -/

/-- In every logged-in state, a transfer that cannot be served is refused without an effect if and
only if it is STOR with no argument. -/
theorem a_transfer_is_refused_iff_it_is_an_empty_STOR (env : Env) (s : Session) (c a : Bytes)
    (hl : s.m_connection_stage = .LOGGED_IN) (h : CannotBeServed s c a) :
    Refused s (s.handle_command env c a) ↔ c = lit "STOR" ∧ a = [] := by
  obtain ⟨hlist, hstor, hretr⟩ := s.handle_command_of_transfer env a hl
  rcases h with ⟨rfl, hp⟩ | ⟨rfl, -⟩ | ⟨rfl, -⟩
  · rw [hlist, run_LIST, if_pos hp]
    exact iff_of_false (not_refused_of_silent rfl) (fun h => absurd h.1 (by decide))
  · rw [hstor]
    by_cases ha : a = []
    · subst ha
      exact iff_of_true refused_of_STOR ⟨rfl, rfl⟩
    · exact iff_of_false (not_refused_of_STOR ha) (fun h => ha h.2)
  · rw [hretr]
    exact iff_of_false (not_refused_of_opens (run_RETR_opens env _))
      (fun h => absurd h.1 (by decide))

/-- The law at a STOR with no argument. -/
theorem an_empty_STOR_is_refused :
    Refused oneFile (oneFile.handle_command (Env.working 0) (lit "STOR") []) :=
  (a_transfer_is_refused_iff_it_is_an_empty_STOR (Env.working 0) oneFile (lit "STOR") [] rfl
    (by decide)).mpr ⟨rfl, rfl⟩

/-- RETR of a file that is not there gets a 550 and then a 150, and an accept starts. -/
theorem a_RETR_of_a_missing_file_is_not_refused :
    oneFile.m_connection_stage = .LOGGED_IN ∧ CannotBeServed oneFile (lit "RETR") (lit "x") ∧
      ¬ Refused oneFile (oneFile.handle_command (Env.working 0) (lit "RETR") (lit "x")) :=
  ⟨rfl, by decide, fun h => absurd h.accepts (by decide)⟩

end asio_ftp.refusals
