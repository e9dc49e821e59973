-- The replies on the wire. The client sees one stream of bytes. It cuts it into replies, by their ends of
-- line and by the hyphen of a reply of many lines, and reads the address of the data channel from one of
-- them.
import AsioFtp.Lib.Readers
import AsioFtp.Strings
import AsioFtp.Vocabulary

namespace asio_ftp.wire

open helpers fs_objects base_session base_session.Session login readers vocabulary

/-! ## What a client reads -/

/-- The byte '-'. -/
def hyphen : UInt8 := 45

/-- A reply is one line, or all the lines from one with a hyphen after its code to one with the code and
a space. -/
def replies : Grammar UInt8 Bytes where
  ending := crlf
  opens l := if l[3]? = some hyphen then some (l.take 3) else none
  closes code l := decide (l.take 4 = code ++ [space])
  ending_ne_nil := by decide

/-- A text with no end of line in it, and no hyphen after its code. -/
def OneLine (m : Bytes) : Prop := CR ∉ m ∧ m[3]? ≠ some hyphen

instance (m : Bytes) : Decidable (OneLine m) := inferInstanceAs (Decidable (_ ∧ _))

theorem opens_of_reply {m p : Bytes} (h : m[3]? ≠ some hyphen) (hp : p <+: m ++ crlf) :
    replies.opens p = none := by
  refine if_neg fun h3 => ?_
  obtain ⟨rest, hrest⟩ := hp
  have hlt3 : 3 < p.length := (List.getElem?_eq_some_iff.mp h3).1
  have hfront : (p ++ rest)[3]? = p[3]? := List.getElem?_append_left hlt3
  rw [← hfront, hrest, List.getElem?_append] at h3
  by_cases hlt : 3 < m.length
  · rw [if_pos hlt] at h3
    exact h h3
  · rw [if_neg hlt] at h3
    exact absurd (List.mem_of_getElem? h3) (by decide)

theorem line_iff {m : Bytes} : Line replies (m ++ crlf) ↔ ¬ crlf <:+: m := by
  constructor
  · rintro hline ⟨a, b, rfl⟩
    have hp := hline.first (a ++ crlf) ⟨b ++ crlf, by simp⟩ (List.suffix_append a crlf)
    have hlen := congrArg List.length hp
    simp [crlf] at hlen
  · intro hno
    refine ⟨List.suffix_append m crlf, ?_⟩
    rintro p ⟨rest, hrest⟩ ⟨a, rfl⟩
    change a ++ crlf ++ rest = m ++ ([CR] ++ [LF]) at hrest
    rcases List.eq_nil_or_concat rest with rfl | ⟨rest, c, rfl⟩
    · exact (List.append_nil _).symm.trans hrest
    -- The end of line would be in the text, or at its CR.
    rw [List.concat_eq_append, ← List.append_assoc, ← List.append_assoc] at hrest
    have hrest := (List.append_inj' hrest rfl).1
    rcases List.eq_nil_or_concat rest with rfl | ⟨rest, d, rfl⟩
    · rw [List.append_nil] at hrest
      have hlast := congrArg List.getLast? hrest
      rw [List.getLast?_append_of_ne_nil _ (by decide), List.getLast?_concat] at hlast
      exact absurd hlast (by decide)
    · rw [List.concat_eq_append, ← List.append_assoc] at hrest
      exact absurd ⟨a, rest, (List.append_inj' hrest rfl).1⟩ hno

/-- A text with no hyphen after its code is read as one reply if and only if it has no end of line. -/
theorem whole_iff {m : Bytes} (h : m[3]? ≠ some hyphen) :
    Whole replies (m ++ crlf) ↔ ¬ crlf <:+: m := by
  rw [whole_iff_line (List.suffix_append m crlf) fun p hp => opens_of_reply h hp, line_iff]

theorem no_crlf_within {m : Bytes} (h : CR ∉ m) : ¬ crlf <:+: m :=
  fun hin => h (hin.subset List.mem_cons_self)

theorem OneLine.whole {m : Bytes} (h : OneLine m) : Whole replies (m ++ crlf) :=
  (whole_iff h.2).mpr (no_crlf_within h.1)

/-- The one reply of many lines. -/
theorem whole_features : Whole replies (features ++ crlf) := by
  have hline : ∀ m, CR ∉ m → Line replies (m ++ crlf) :=
    fun m h => line_iff.mpr (no_crlf_within h)
  have hnames : ∀ m ∈ [lit " AUTH TLS", lit " PASV", lit " PBSZ", lit " PROT", lit " UTF8"],
      CR ∉ m := by decide
  refine @whole_group _ _ _ replies (lit "211-Features:" ++ crlf) (lit "211 End" ++ crlf)
    ([lit " AUTH TLS", lit " PASV", lit " PBSZ", lit " PROT", lit " UTF8"].map (· ++ crlf))
    (lit "211") (hline _ (by decide)) ?_ (hline _ (by decide)) rfl (by decide) (by decide)
  intro l hl
  obtain ⟨m, hm, rfl⟩ := List.mem_map.mp hl
  exact hline m (hnames m hm)

/-! ## The replies with a number or an address -/

/-- The bytes of a number are digits, and a hyphen. -/
theorem cr_notMem_to_string (n : Int) : CR ∉ to_string n := by
  intro h
  unfold to_string at h
  split at h
  · rcases List.mem_cons.mp h with h | h
    · exact absurd h (by decide)
    · exact absurd (le_of_mem_digits h) (by decide)
  · exact absurd (le_of_mem_digits h) (by decide)

theorem map_intercalate (a b : UInt8) {pieces : List Bytes} (h : ∀ p ∈ pieces, a ∉ p) :
    ([a].intercalate pieces).map (fun c => if c = a then b else c) = [b].intercalate pieces := by
  have hmap : ∀ p : Bytes, a ∉ p → p.map (fun c => if c = a then b else c) = p := by
    intro p hp
    have hsame : p.map (fun c => if c = a then b else c) = p.map id :=
      List.map_congr_left fun c hc => if_neg fun (hca : c = a) => hp (hca ▸ hc)
    rw [hsame, List.map_id]
  induction pieces with
  | nil => rfl
  | cons p pieces ih =>
    have hp := hmap p (h p List.mem_cons_self)
    cases pieces with
    | nil => simpa using hp
    | cons q pieces =>
      have ih := ih fun x hx => h x (List.mem_cons_of_mem _ hx)
      rw [List.intercalate_cons_cons, List.intercalate_cons_cons, List.map_append, List.map_append, hp,
        ih]
      simp

/-- A replacement of a byte by a byte goes through the text. -/
theorem string_replace_byte (s : Bytes) (a b : UInt8) :
    string_replace s [a] [b] = s.map fun c => if c = a then b else c := by
  obtain ⟨pieces, hcut⟩ : ∃ pieces, cuts.Cut [a] s pieces := by
    by_cases hs : s = []
    · subst hs
      exact ⟨[[]], strings.cut_of_short Nat.one_pos⟩
    · exact ⟨_, strings.cut_string_split (by simp) hs⟩
  have hfree : ∀ p ∈ pieces, a ∉ p := by
    intro p hp ha
    obtain ⟨l, r, rfl⟩ := List.append_of_mem ha
    exact hcut.not_infix (by simp) _ hp ⟨l, r, by simp⟩
  rw [strings.string_replace_of_cut (by simp) hcut, ← map_intercalate a b hfree, hcut.intercalate_eq]

theorem oneLine_passive {p : Bytes × Nat} (h : CR ∉ p.1) : OneLine (passive p) := by
  constructor
  · have hreplace : CR ∉ string_replace p.1 (lit ".") (lit ",") := by
      rw [show lit "." = [46] from rfl, show lit "," = [44] from rfl, string_replace_byte]
      intro hin
      obtain ⟨c, hc, he⟩ := List.mem_map.mp hin
      split at he
      · exact absurd he (by decide)
      · exact h (he ▸ hc)
    unfold passive
    simp only [List.mem_append, hreplace, cr_notMem_to_string, or_false]
    decide
  · unfold passive
    rw [List.append_assoc, List.getElem?_append_left (by decide)]
    decide

theorem oneLine_size (n : Int) : OneLine (lit "213 " ++ to_string n) := by
  refine ⟨?_, ?_⟩
  · simp only [List.mem_append, cr_notMem_to_string, or_false]
    decide
  · rw [List.getElem?_append_left (by decide)]
    decide

/-- A text that is a whole reply once it is ended. -/
def WholeText (m : Bytes) : Prop := Whole replies (m ++ crlf)

theorem speaks_whole : Speaks WholeText where
  text m hm :=
    have hall : ∀ m ∈ TEXTS, OneLine m := by decide
    (hall m hm).whole
  features := whole_features
  size n := (oneLine_size n).whole

theorem whole_of_transfer : ∀ m ∈ TRANSFER_TEXTS, WholeText m := by
  have hall : ∀ m ∈ TRANSFER_TEXTS, OneLine m := by decide
  exact fun m hm => (hall m hm).whole

/-- Where a session answers: the text of its address and the port of its data acceptor. -/
structure Endpoint where
  address : Bytes
  port : Nat
  one_line : CR ∉ address
  port_lt : port < 65536

def begunAt (endpoint : Endpoint) (session_class : SessionClass) (users : users.Table) (store : Store)
    (lap available : Nat) : Session :=
  { begun session_class users store lap available with
    local_address := endpoint.address
    acceptor_port := endpoint.port }

/-- A logged-in client sends this command. -/
def Asks (command : Bytes) (s : Session) (e : Env × Event) : Prop :=
  s.m_connection_stage = .LOGGED_IN ∧ ∃ c ∈ commandOf e.2, c.1 = command

theorem handles_of_asks {command : Bytes} {env : Env} {s s' : Session} {e : Event}
    (h : Stepped env s e s') (ha : Asks command s (env, e)) : ∃ a,
      s' = { s with control_reads := s.control_reads - 1 }.handle_command env command a := by
  obtain ⟨-, c, hc, rfl⟩ := ha
  cases h with
  | control_received ec received =>
    simp only [commandOf, Option.mem_def, Option.ite_none_left_eq_some, Option.some.injEq] at hc
    obtain ⟨-, rfl⟩ := hc
    exact ⟨_, rfl⟩
  | _ => simp [commandOf] at hc

theorem sent_of_PWD {env : Env} {s s' : Session} {e : Event} (h : Stepped env s e s')
    (ha : Asks (lit "PWD") s (env, e)) : place s' = place s ∧
      s'.sent = s.sent ++ [quoted s.m_working_directory ++ crlf] := by
  obtain ⟨a, rfl⟩ := handles_of_asks h ha
  have hl := ha.1
  simp +decide [handle_command, handle_logged_in, hl, reply, Session.control_send, control_receive,
    quoted, place]

theorem sent_of_PASV {env : Env} {s s' : Session} {e : Event} (h : Stepped env s e s')
    (ha : Asks (lit "PASV") s (env, e)) : s'.sent = s.sent ++ [passive (place s) ++ crlf] := by
  obtain ⟨a, rfl⟩ := handles_of_asks h ha
  have hl := ha.1
  simp +decide [handle_command, handle_logged_in, hl, run_PASV, reply, Session.control_send,
    control_receive, place, passive]

theorem says_of_not_PWD {env : Env} {s s' : Session} {e : Event} (h : Stepped env s e s')
    (ha : CR ∉ s.local_address) (hno : ¬ Asks (lit "PWD") s (env, e)) : Says WholeText s s' := by
  have hpasv : WholeText (passive (place s)) := (oneLine_passive ha).whole
  exact says_of_event speaks_whole whole_of_transfer h hpasv
    fun c hc hp hl => absurd ⟨hl, c, hc, hp⟩ hno

/-- What holds between the events. -/
def Sound (endpoint : Endpoint) (s : Session) : Prop :=
  place s = (endpoint.address, endpoint.port) ∧ ∀ m ∈ s.sent, Whole replies m

theorem cr_notMem_of_place {endpoint : Endpoint} {s : Session}
    (hp : place s = (endpoint.address, endpoint.port)) : CR ∉ s.local_address := by
  have ha : s.local_address = endpoint.address := congrArg Prod.fst hp
  rw [ha]
  exact endpoint.one_line

theorem place_of_step {endpoint : Endpoint} {s s' : Session} {e : Env × Event}
    (hp : place s = (endpoint.address, endpoint.port)) (h : s.step e = some s') :
    place s' = (endpoint.address, endpoint.port) := by
  have ha := cr_notMem_of_place hp
  have hst := (step_stepped h).2
  by_cases hpwd : Asks (lit "PWD") s e
  · exact (sent_of_PWD hst hpwd).1.trans hp
  · exact (says_of_not_PWD hst ha hpwd).place.trans hp

/-- The number that a client reads in one byte of an address or a port. -/
def byteOf (text : Bytes) : Option Nat :=
  if text ≠ [] ∧ text.all (fun c => 48 ≤ c && c ≤ 57) ∧ digitsValue text < 256 then
    some (digitsValue text)
  else none

/-- The text of an IPv4 address. -/
def dotted (h1 h2 h3 h4 : Nat) : Bytes :=
  (lit ".").intercalate [to_string h1, to_string h2, to_string h3, to_string h4]

/-- The address and the port that a client reads in the reply to PASV, between its brackets. -/
def addressOf (reply : Bytes) : Option (Bytes × Nat) :=
  let inner := ((reply.dropWhile (· ≠ 40)).drop 1).takeWhile (· ≠ 41)
  match (inner.splitOn 44).mapM byteOf with
  | some [h1, h2, h3, h4, p1, p2] => some (dotted h1 h2 h3 h4, 256 * p1 + p2)
  | _ => none

def IPv4 (address : Bytes) : Prop :=
  ∃ h1 h2 h3 h4 : Nat, (h1 < 256 ∧ h2 < 256 ∧ h3 < 256 ∧ h4 < 256) ∧ address = dotted h1 h2 h3 h4

theorem to_string_natCast (n : Nat) : to_string n = digits n := by
  unfold to_string
  rw [if_neg (Int.not_lt.mpr (Int.natCast_nonneg n)), Int.natAbs_natCast]

theorem mem_to_string {n : Nat} {c : UInt8} (h : c ∈ to_string n) : 48 ≤ c ∧ c ≤ 57 := by
  rw [to_string_natCast, digits] at h
  split at h
  · rw [List.mem_singleton.mp h]
    decide
  · simp only [List.mem_reverse, List.mem_map] at h
    obtain ⟨d, hd, rfl⟩ := h
    have hlt : d < 10 := Nat.digits_lt_base (by decide) hd
    interval_cases d <;> decide

theorem notMem_to_string {n : Nat} {c : UInt8} (hc : c < 48 ∨ 57 < c) : c ∉ to_string n := by
  intro h
  obtain ⟨h1, h2⟩ := mem_to_string h
  rcases hc with hc | hc
  · exact absurd h1 (UInt8.not_le.mpr hc)
  · exact absurd h2 (UInt8.not_le.mpr hc)

theorem byteOf_to_string {n : Nat} (h : n < 256) : byteOf (to_string n) = some n := by
  have hvalue : digitsValue (to_string n) = n := by
    rw [to_string_natCast, digitsValue_digits]
  have hall : (to_string n).all (fun c => 48 ≤ c && c ≤ 57) = true := by
    rw [List.all_eq_true]
    intro c hc
    obtain ⟨h1, h2⟩ := mem_to_string hc
    simp [h1, h2]
  have hne : to_string n ≠ [] := by
    intro hnil
    rw [hnil] at hvalue
    subst hvalue
    exact absurd hnil (by decide)
  unfold byteOf
  rw [hvalue, if_pos ⟨hne, hall, h⟩]

theorem byteOf_lt {text : Bytes} {n : Nat} (h : byteOf text = some n) : n < 256 := by
  unfold byteOf at h
  split at h
  · next hc => exact Option.some.inj h ▸ hc.2.2
  · cases h

theorem mapM_byteOf_lt {texts : List Bytes} {ns : List Nat} (h : texts.mapM byteOf = some ns) :
    ∀ n ∈ ns, n < 256 := by
  induction texts generalizing ns with
  | nil =>
    obtain rfl : [] = ns := by simpa using h
    simp
  | cons text texts ih =>
    simp only [List.mapM_cons, Option.bind_eq_bind, Option.bind_eq_some_iff, Option.pure_def,
      Option.some.injEq] at h
    obtain ⟨n, hn, ms, hms, rfl⟩ := h
    intro m hm
    rcases List.mem_cons.mp hm with rfl | hm
    · exact byteOf_lt hn
    · exact ih hms m hm

theorem mem_intercalate {x c : UInt8} {pieces : List Bytes} (h : c ∈ [x].intercalate pieces) :
    c = x ∨ ∃ p ∈ pieces, c ∈ p := by
  induction pieces with
  | nil => simp at h
  | cons p pieces ih =>
    cases pieces with
    | nil => exact Or.inr ⟨p, List.mem_cons_self, by simpa using h⟩
    | cons q pieces =>
      rw [List.intercalate_cons_cons, List.append_assoc, List.mem_append, List.mem_append] at h
      rcases h with h | h | h
      · exact Or.inr ⟨p, List.mem_cons_self, h⟩
      · exact Or.inl (List.mem_singleton.mp h)
      · rcases ih h with h | ⟨r, hr, h⟩
        · exact Or.inl h
        · exact Or.inr ⟨r, List.mem_cons_of_mem _ hr, h⟩

/-- What a client finds between the brackets. -/
theorem inner_passive (h1 h2 h3 h4 port : Nat) :
    (((passive (dotted h1 h2 h3 h4, port) ++ crlf).dropWhile (· ≠ 40)).drop 1).takeWhile (· ≠ 41) =
      [44].intercalate ([h1, h2, h3, h4, port / 256, port % 256].map fun n : Nat => to_string n) := by
  have hreplace : string_replace (dotted h1 h2 h3 h4) (lit ".") (lit ",") =
      [44].intercalate [to_string h1, to_string h2, to_string h3, to_string h4] := by
    have hfree : ∀ n : Nat, (46 : UInt8) ∉ to_string n :=
      fun n => notMem_to_string (Or.inl (by decide))
    have hcut : cuts.Cut [46] (dotted h1 h2 h3 h4)
        [to_string h1, to_string h2, to_string h3, to_string h4] :=
      cuts.cut_intercalate [] (by simp) (by simp [hfree])
    exact strings.string_replace_of_cut (by simp) hcut [44]
  have hjoin : passive (dotted h1 h2 h3 h4, port) ++ crlf = lit "227 Entering Passive Mode (" ++
      ([44].intercalate ([h1, h2, h3, h4, port / 256, port % 256].map fun n : Nat => to_string n) ++
        (lit ")" ++ crlf)) := by
    unfold passive
    rw [hreplace]
    simp [List.intercalate_cons_cons, lit]
  have hopen : ∀ rest : Bytes, ((lit "227 Entering Passive Mode (" ++ rest).dropWhile
      (· ≠ 40)).drop 1 = rest := fun _ => rfl
  rw [hjoin, hopen, List.takeWhile_append_of_pos]
  · simp [lit]
  · intro c hc
    rcases mem_intercalate hc with rfl | ⟨piece, hpiece, hc⟩
    · decide
    · obtain ⟨n, -, rfl⟩ := List.mem_map.mp hpiece
      have hne : c ≠ 41 := fun he => notMem_to_string (Or.inl (by decide)) (he ▸ hc)
      simpa using hne

/-- A client reads the place of a session in its PASV reply if and only if the address is IPv4. -/
theorem addressOf_passive_iff {p : Bytes × Nat} (hp : p.2 < 65536) :
    addressOf (passive p ++ crlf) = some p ↔ IPv4 p.1 := by
  constructor
  · intro h
    unfold addressOf at h
    simp only at h
    split at h
    · next h1 h2 h3 h4 p1 p2 hparse =>
      have hlt := mapM_byteOf_lt hparse
      refine ⟨h1, h2, h3, h4, ⟨hlt _ ?_, hlt _ ?_, hlt _ ?_, hlt _ ?_⟩, ?_⟩
      · simp
      · simp
      · simp
      · simp
      · exact (congrArg Prod.fst (Option.some.inj h)).symm
    · cases h
  · obtain ⟨address, port⟩ := p
    rintro ⟨h1, h2, h3, h4, ⟨hh1, hh2, hh3, hh4⟩, rfl⟩
    have hsplit : ([44].intercalate ([h1, h2, h3, h4, port / 256, port % 256].map
        fun n : Nat => to_string n)).splitOn 44 = _ := List.splitOn_intercalate _ (by
      intro l hl
      obtain ⟨n, -, rfl⟩ := List.mem_map.mp hl
      exact notMem_to_string (Or.inl (by decide))) (by simp)
    have hhigh : port / 256 < 256 := by
      simp only at hp
      omega
    have hlow : port % 256 < 256 := Nat.mod_lt _ (by decide)
    unfold addressOf
    rw [inner_passive]
    dsimp only
    rw [hsplit]
    simp only [List.map_cons, List.map_nil, List.mapM_cons, List.mapM_nil, byteOf_to_string, hh1, hh2,
      hh3, hh4, hhigh, hlow, Option.bind_eq_bind, Option.bind_some, Option.pure_def]
    rw [Nat.div_add_mod]

/-- A PASV is answered by one reply, which tells the client the place of the data acceptor. -/
def TellsPlace (endpoint : Endpoint) (s : Session) (e : Env × Event) (s' : Session) : Prop :=
  Asks (lit "PASV") s e → ∃ m, s'.sent = s.sent ++ [m] ∧
    addressOf m = some (endpoint.address, endpoint.port)

/-- In every run of any session, every PASV of a logged-in client tells it where the data acceptor
listens, if and only if there is none or the address of the session is IPv4. -/
theorem the_client_finds_the_data_channel_iff (endpoint : Endpoint) (session_class : SessionClass)
    (users : users.Table) (store : Store) (lap available : Nat) (es : List (Env × Event)) :
    runs.Along Session.step (TellsPlace endpoint)
        (begunAt endpoint session_class users store lap available) es ↔
      runs.Along Session.step (fun s e _ => Asks (lit "PASV") s e → IPv4 endpoint.address)
        (begunAt endpoint session_class users store lap available) es := by
  refine runs.along_iff_of_invariant (J := fun s => place s = (endpoint.address, endpoint.port))
    ?_ (fun _ _ _ hp h _ => place_of_step hp h) rfl
  intro s e s' hp h
  unfold TellsPlace
  refine imp_congr_right fun hasks => ?_
  have hsent := sent_of_PASV (step_stepped h).2 hasks
  rw [← addressOf_passive_iff (p := (endpoint.address, endpoint.port)) endpoint.port_lt, ← hp]
  constructor
  · rintro ⟨m, hm, haddress⟩
    rw [hsent] at hm
    obtain rfl := List.singleton_inj.mp (List.append_cancel_left hm)
    exact haddress
  · exact fun haddress => ⟨_, hsent, haddress⟩

end asio_ftp.wire
