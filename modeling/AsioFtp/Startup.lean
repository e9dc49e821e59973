-- The laws of the start-up of a TLS session: one handshake, one welcome, and no command before
-- the handshake succeeded.
import AsioFtp.Gate
import AsioFtp.Links
import AsioFtp.Replies

namespace asio_ftp.startup

open fs_objects base_session base_session.Session login gate

/-! ## What is watched -/

def welcome : Bytes := lit "220 Welcome. Encryption required." ++ crlf

/-- The handshakes that were outstanding before an event could start one. -/
def handshakesBefore (s : Session) : Event → List Bool
  | .handshaken _ is_implicit => s.control_handshakes.erase is_implicit
  | _ => s.control_handshakes

/-- One event of a session, with the handshakes that it started so far: implicit (`true`) or
explicit (`false`). -/
def watched (x : Session × List Bool) (e : Env × Event) : Option (Session × List Bool) :=
  (x.1.step e).map fun s' =>
    (s', x.2 ++ s'.control_handshakes.drop (handshakesBefore x.1 e.2).length)

/-- The session still starts: it waits on the timer, reads from the plain socket or makes its one
handshake, and sent the welcome once it is in explicit mode. -/
structure Before (x : Session × List Bool) : Prop where
  tls : x.1.tls = false
  reads : x.1.control_reads = 0
  untouched : Untouched x.1
  started : x.2 = x.1.control_handshakes
  one : x.1.timer_waits + x.1.probe_reads + x.1.control_handshakes.length = 1
  welcomed : x.1.sent.count welcome =
    if x.1.timer_waits = 0 ∧ x.1.control_handshakes ≠ [true] then 1 else 0

/-- The one handshake ended. It failed, and the session does nothing more, or the session has TLS
and sent the welcome. -/
structure After (x : Session × List Bool) : Prop where
  idle : x.1.timer_waits = 0 ∧ x.1.probe_reads = 0 ∧ x.1.control_handshakes = []
  started : x.2.length = 1
  failed : x.1.tls = false → x.1.control_reads = 0 ∧ Untouched x.1 ∧ x.1.sent.count welcome ≤ 1
  secured : x.1.tls = true → x.1.sent.count welcome = 1

def Sound (x : Session × List Bool) : Prop := Before x ∨ After x

/-- The events after the start-up neither wait, nor read the plain socket, nor start a
handshake. -/
theorem starting_step {s s' : Session} {env : Env} {e : Event} (h : Stepped env s e s')
    (he : startsUp e = false) : s'.timer_waits = s.timer_waits ∧ s'.probe_reads = s.probe_reads ∧
      s'.control_handshakes = s.control_handshakes := by
  by_cases hc : onControl e = true
  · cases h with
    | control_received ec received =>
      have hcounts := counts_handle_command env { s with control_reads := s.control_reads - 1 }
        (handle_control_receive_callback ec received).1
        (handle_control_receive_callback ec received).2
      exact ⟨hcounts.timer_waits, hcounts.probe_reads, hcounts.handshakes⟩
    | control_sent => exact ⟨rfl, rfl, rfl⟩
    | probe_sent => exact ⟨rfl, rfl, rfl⟩
    | timer => simp [startsUp] at he
    | probe_received => simp [startsUp] at he
    | handshaken => simp [startsUp] at he
    | _ => simp [onControl] at hc
  · rcases h.front (by simpa using hc) with hf | ⟨m, hf⟩
    · exact ⟨congrArg Front.timer_waits hf, congrArg Front.probe_reads hf,
        congrArg Front.handshakes hf⟩
    · exact ⟨congrArg Front.timer_waits hf, congrArg Front.probe_reads hf,
        congrArg Front.handshakes hf⟩

section
variable {s s' : Session} {k : List Bool} {env : Env} {e : Event}

end

theorem sound_begun (users : users.Table) (store : Store) (lap available : Nat) :
    Sound (begun .secure_session users store lap available,
      (begun .secure_session users store lap available).control_handshakes) := by
  have hu := untouched_begun .secure_session users store lap available
  left
  unfold begun start_session wait_for_implicit at hu ⊢
  simp only [Session.fresh] at hu ⊢
  split
  · next h =>
    rw [if_pos h] at hu
    exact ⟨rfl, rfl, hu, rfl, rfl, rfl⟩
  next h =>
  rw [if_neg h] at hu
  split
  · next h =>
    rw [if_pos h] at hu
    exact ⟨rfl, rfl, hu, rfl, rfl, rfl⟩
  · next h =>
    rw [if_neg h] at hu
    exact ⟨rfl, rfl, hu, rfl, rfl, rfl⟩

end asio_ftp.startup
