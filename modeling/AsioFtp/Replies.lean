-- The codes of the replies: what `handle_command` and the ends of the transfers send, each with
-- one of a few codes, none of which is that of the welcome.
import AsioFtp.Effects

namespace asio_ftp.base_session

open helpers fs_objects

/-! ## The codes -/

/-- The three digits that a reply begins with. -/
def code (message : Bytes) : Bytes := message.take 3

/-- The codes of the replies to a command and of the ends of a transfer. -/
def REPLY_CODES : List Bytes :=
  [lit "150", lit "200", lit "211", lit "213", lit "215", lit "221", lit "226", lit "227",
    lit "230", lit "250", lit "257", lit "331", lit "501", lit "502", lit "530", lit "550"]

theorem code_append {a : Bytes} (b : Bytes) (h : 3 ≤ a.length) : code (a ++ b) = code a :=
  List.take_append_of_le_length h

namespace Session

/-- The replies between two states of a session all have a reply code. -/
def Replied (s t : Session) : Prop :=
  ∃ messages, t.sent = s.sent ++ messages ∧ ∀ m ∈ messages, code m ∈ REPLY_CODES

theorem Replied.none {s t : Session} (h : t.sent = s.sent) : Replied s t :=
  ⟨[], by rw [h, List.append_nil], by simp⟩

theorem Replied.trans {s t u : Session} (h : Replied s t) (h' : Replied t u) : Replied s u := by
  obtain ⟨ms, hs, hm⟩ := h
  obtain ⟨ms', hs', hm'⟩ := h'
  refine ⟨ms ++ ms', by rw [hs', hs, List.append_assoc], ?_⟩
  intro m hmem
  rcases List.mem_append.mp hmem with hmem | hmem
  · exact hm m hmem
  · exact hm' m hmem

/-- A message whose first part has a reply code. -/
theorem Replied.say {s t u : Session} (h : Replied s t) {m n : Bytes}
    (hu : u.sent = t.sent ++ [m ++ n ++ crlf]) (hl : 3 ≤ m.length) (hm : code m ∈ REPLY_CODES) :
    Replied s u := by
  refine h.trans ⟨[m ++ n ++ crlf], hu, ?_⟩
  intro x hx
  rw [List.mem_singleton.mp hx, List.append_assoc, code_append _ hl]
  exact hm

section
variable (env : Env) (s : Session) (a : Bytes)

end

/-! ## The events after the start-up -/

end Session

end asio_ftp.base_session
