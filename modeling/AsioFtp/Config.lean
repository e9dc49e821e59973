-- The configuration (src/config/parser.cpp): the members of a JSON object become the settings of
-- the server, in whatever order they come.
import AsioFtp.Lib.Members
import AsioFtp.Main

namespace asio_ftp.config

open main members

/-! ## JSON -/

/-- A `boost::json::value`. A double is its bits. -/
inductive Json
  | null
  | bool_ (b : Bool)
  | int64 (i : Int64)
  | uint64 (n : UInt64)
  | double_ (bits : UInt64)
  | string (s : Bytes)
  | array (values : List Json)
  | object (members : List (Bytes × Json))

inductive Kind
  | null
  | bool_
  | int64
  | uint64
  | double_
  | string
  | array
  | object
  deriving DecidableEq

def Json.kind : Json → Kind
  | .null => .null
  | .bool_ _ => .bool_
  | .int64 _ => .int64
  | .uint64 _ => .uint64
  | .double_ _ => .double_
  | .string _ => .string
  | .array _ => .array
  | .object _ => .object

/-- What `read_json_config` throws: a `std::runtime_error`, with the line that is printed before it,
or the error of an `as_` function of another kind. -/
inductive Thrown
  | runtime_error (printed what : Bytes)
  | not_string
  | not_int64
  deriving DecidableEq

def Json.as_string : Json → Except Thrown Bytes
  | .string s => .ok s
  | _ => .error .not_string

/-! ## The reading -/

def CONFIG_VALUE_TYPE_MAP : List (Bytes × Kind) :=
  [(lit "secure", .bool_), (lit "port", .int64), (lit "users", .array)]

/-- The port is an `int`. -/
structure parsed_config where
  secure : Bool := false
  port : Int32 := 6921
  users : UserMap := .empty

/-- The loop over the members of a user, with its name and its password so far. -/
def readUser : Bytes → Bytes → List (Bytes × Json) → Except Thrown (Bytes × Bytes)
  | temp_name, temp_password, [] => .ok (temp_name, temp_password)
  | temp_name, temp_password, (key, value) :: config_user_obj =>
    if key = lit "name" then
      match value.as_string with
      | .error e => .error e
      | .ok s => readUser s temp_password config_user_obj
    else if key = lit "password" then
      match value.as_string with
      | .error e => .error e
      | .ok s => readUser temp_name s config_user_obj
    else readUser temp_name temp_password config_user_obj

/-- The loop over the users, which skips what is no object. -/
def readUsers : UserMap → List Json → Except Thrown UserMap
  | users, [] => .ok users
  | users, .object config_user_obj :: temp_arr =>
    match readUser [] [] config_user_obj with
    | .error e => .error e
    | .ok (temp_name, temp_password) => readUsers (users.assign temp_name temp_password) temp_arr
  | users, _ :: temp_arr => readUsers users temp_arr

def shouldnt_happen : Thrown :=
  .runtime_error (lit "Something is wrong with the code, this shouldn't happen")
    (lit "Program error")

/-- One turn of the loop over the members. A port falls through to the default branch when its key
is another one. -/
def readMember (config : parsed_config) (key : Bytes) (value : Json) :
    Except Thrown parsed_config :=
  match CONFIG_VALUE_TYPE_MAP.lookup key with
  | none => .ok config
  | some kind =>
    if value.kind ≠ kind then
      .error (.runtime_error (lit "Invalid data type: " ++ key) (lit "Invalid JSON config"))
    else
      match value with
      | .array temp_arr =>
        match readUsers config.users temp_arr with
        | .error e => .error e
        | .ok users => .ok { config with users }
      | .bool_ b => if key = lit "secure" then .ok { config with secure := b } else .ok config
      | .int64 i =>
        if key = lit "port" then .ok { config with port := i.toInt32 } else .error shouldnt_happen
      | .uint64 _ => if key = lit "port" then .error .not_int64 else .error shouldnt_happen
      | _ => .error shouldnt_happen

/-- The loop over the members of the configuration. -/
def readMembers : parsed_config → List (Bytes × Json) → Except Thrown parsed_config
  | config, [] => .ok config
  | config, (key, value) :: config_firstobj =>
    match readMember config key value with
    | .error e => .error e
    | .ok config => readMembers config config_firstobj

def DEFAULT_USERS : List Json :=
  [.object [(lit "name", .string (lit "guest")), (lit "password", .string (lit "12345"))]]

def DEFAULT_CONFIG : List (Bytes × Json) :=
  [(lit "secure", .bool_ false), (lit "port", .int64 6921), (lit "users", .array DEFAULT_USERS)]

/-- The configuration that `make_default_json` returns, next to the file that it writes. -/
def make_default_json : parsed_config where
  secure := false
  port := 6921
  users := UserMap.empty.assign (lit "guest") (lit "12345")

/-- What there is of `config/config.json`: no directory or no file, a text that is no JSON, with
the message of the parser, or a value. -/
inductive ConfigFile
  | missing
  | invalid (message : Bytes)
  | parsed (config : Json)

def read_json_config : ConfigFile → Except Thrown parsed_config
  | .missing => .ok make_default_json
  | .invalid message =>
    .error (.runtime_error (lit "Error during JSON parsing: " ++ message)
      (lit "Invalid JSON config"))
  | .parsed (.object config_firstobj) => readMembers {} config_firstobj
  | .parsed _ => .error (.runtime_error (lit "Invalid config") (lit "Invalid JSON config"))

/-- The default file reads as the default configuration. -/
theorem read_default_config :
    read_json_config (.parsed (.object DEFAULT_CONFIG)) = read_json_config .missing := rfl

/-! ## What the values say -/

namespace Json

def bool? : Json → Option Bool
  | .bool_ b => some b
  | _ => none

def int64? : Json → Option Int64
  | .int64 i => some i
  | _ => none

def string? : Json → Option Bytes
  | .string s => some s
  | _ => none

def array? : Json → Option (List Json)
  | .array values => some values
  | _ => none

theorem toOption_as_string (v : Json) : v.as_string.toOption = v.string? := by
  cases v <;> rfl

end Json

/-- The two texts of a user, by their keys. -/
def stepUser (user : Bytes × Bytes) (key : Bytes) (value : Json) : Option (Bytes × Bytes) :=
  if key = lit "name" then value.string?.map (fun s => (s, user.2))
  else if key = lit "password" then value.string?.map (fun s => (user.1, s))
  else some user

/-- The settings of the configuration, by their keys. -/
def stepMember (config : parsed_config) (key : Bytes) (value : Json) : Option parsed_config :=
  if key = lit "secure" then value.bool?.map (fun b => { config with secure := b })
  else if key = lit "port" then value.int64?.map (fun i => { config with port := i.toInt32 })
  else if key = lit "users" then
    value.array?.bind (fun l =>
      (readUsers config.users l).toOption.map (fun users => { config with users }))
  else some config

theorem toOption_readUser (user : Bytes × Bytes) (ms : List (Bytes × Json)) :
    (readUser user.1 user.2 ms).toOption = readAll stepUser user ms := by
  induction ms generalizing user with
  | nil => rfl
  | cons m ms ih =>
    rw [readUser, readAll, stepUser]
    split
    · rw [← m.2.toOption_as_string]
      cases m.2.as_string with
      | error e => rfl
      | ok s => exact ih (s, user.2)
    · split
      · rw [← m.2.toOption_as_string]
        cases m.2.as_string with
        | error e => rfl
        | ok s => exact ih (user.1, s)
      · exact ih user

/-- The type map has the three keys. -/
theorem lookup_type_map (key : Bytes) : CONFIG_VALUE_TYPE_MAP.lookup key =
    if key = lit "secure" then some .bool_ else if key = lit "port" then some .int64
    else if key = lit "users" then some .array else none := by
  simp only [CONFIG_VALUE_TYPE_MAP, lookup_cons_ite, List.lookup_nil]

theorem toOption_readMember (config : parsed_config) (key : Bytes) (value : Json) :
    (readMember config key value).toOption = stepMember config key value := by
  unfold readMember stepMember
  rw [lookup_type_map]
  by_cases h1 : key = lit "secure"
  · simp only [if_pos h1]
    cases value <;> rfl
  by_cases h2 : key = lit "port"
  · simp only [if_neg h1, if_pos h2]
    cases value <;> rfl
  by_cases h3 : key = lit "users"
  · simp only [if_neg h1, if_neg h2, if_pos h3]
    cases value with
    | array l =>
      simp only [Json.kind, Json.array?, ne_eq, not_true_eq_false, if_false, Option.bind_some]
      cases readUsers config.users l <;> rfl
    | _ => rfl
  · simp only [if_neg h1, if_neg h2, if_neg h3]
    rfl

theorem toOption_readMembers (config : parsed_config) (ms : List (Bytes × Json)) :
    (readMembers config ms).toOption = readAll stepMember config ms := by
  induction ms generalizing config with
  | nil => rfl
  | cons m ms ih =>
    rw [readMembers, readAll, ← toOption_readMember]
    cases readMember config m.1 m.2 with
    | error e => rfl
    | ok config => exact ih config

/-! ## The default branch -/

theorem readUser_error {n p : Bytes} {ms : List (Bytes × Json)} {e : Thrown}
    (h : readUser n p ms = .error e) : e = .not_string := by
  have hstring : ∀ {v : Json} {e : Thrown}, v.as_string = .error e → e = .not_string := by
    intro v e hv
    cases v <;> simp_all [Json.as_string]
  induction ms generalizing n p with
  | nil => cases h
  | cons m ms ih =>
    unfold readUser at h
    split at h
    · split at h
      · next hv => exact Except.error.inj h ▸ hstring hv
      · exact ih h
    · split at h
      · split at h
        · next hv => exact Except.error.inj h ▸ hstring hv
        · exact ih h
      · exact ih h

theorem readUsers_error {users : UserMap} {l : List Json} {e : Thrown}
    (h : readUsers users l = .error e) : e = .not_string := by
  induction l generalizing users with
  | nil => cases h
  | cons v l ih =>
    unfold readUsers at h
    split at h
    · cases h
    · next heq =>
      cases heq
      split at h
      · next hu => exact Except.error.inj h ▸ readUser_error hu
      · exact ih h
    · next heq =>
      cases heq
      exact ih h

/-- The kind of a recognised key decides the branch of the switch, and the key goes with it. -/
theorem readMember_error {config : parsed_config} {key : Bytes} {value : Json} {e : Thrown}
    (h : readMember config key value = .error e) :
    e = .runtime_error (lit "Invalid data type: " ++ key) (lit "Invalid JSON config") ∨
      e = .not_string := by
  unfold readMember at h
  rw [lookup_type_map] at h
  by_cases h1 : key = lit "secure"
  · simp only [if_pos h1] at h
    cases value with
    | bool_ b => cases h
    | _ => exact Or.inl (Except.error.inj h).symm
  by_cases h2 : key = lit "port"
  · simp only [if_neg h1, if_pos h2] at h
    cases value with
    | int64 i => cases h
    | _ => exact Or.inl (Except.error.inj h).symm
  by_cases h3 : key = lit "users"
  · simp only [if_neg h1, if_neg h2, if_pos h3] at h
    cases value with
    | array l =>
      simp only [Json.kind, ne_eq, not_true_eq_false, if_false] at h
      split at h
      · next hl => exact Or.inr (Except.error.inj h ▸ readUsers_error hl)
      · cases h
    | _ => exact Or.inl (Except.error.inj h).symm
  · simp only [if_neg h1, if_neg h2, if_neg h3] at h
    cases h

theorem readMembers_ne_shouldnt_happen (config : parsed_config) (ms : List (Bytes × Json)) :
    readMembers config ms ≠ .error shouldnt_happen := by
  induction ms generalizing config with
  | nil => exact fun h => nomatch h
  | cons m ms ih =>
    intro h
    unfold readMembers at h
    split at h
    · next e he =>
      have hwhat : lit "Program error" ≠ lit "Invalid JSON config" := by decide
      rcases readMember_error he with rfl | rfl
      · exact hwhat (Thrown.runtime_error.inj (Except.error.inj h)).2.symm
      · cases h
    · exact ih _ h

/-! ## The keys can be read in any order -/

section
variable (value : Json)

theorem stepUser_name (user : Bytes × Bytes) :
    stepUser user (lit "name") value = value.string?.map (fun s => (s, user.2)) := if_pos rfl

theorem stepUser_password (user : Bytes × Bytes) :
    stepUser user (lit "password") value = value.string?.map (fun s => (user.1, s)) := by
  rw [stepUser, if_neg (by decide), if_pos rfl]

variable (config : parsed_config)

theorem stepMember_secure : stepMember config (lit "secure") value =
    value.bool?.map (fun b => { config with secure := b }) := if_pos rfl

theorem stepMember_port : stepMember config (lit "port") value =
    value.int64?.map (fun i => { config with port := i.toInt32 }) := by
  rw [stepMember, if_neg (by decide), if_pos rfl]

theorem stepMember_users : stepMember config (lit "users") value =
    value.array?.bind (fun l =>
      (readUsers config.users l).toOption.map (fun users => { config with users })) := by
  rw [stepMember, if_neg (by decide), if_neg (by decide), if_pos rfl]

end

theorem independent_stepUser : Independent stepUser [lit "name", lit "password"] where
  other user key value hk := by
    simp only [List.mem_cons, List.not_mem_nil, or_false, not_or] at hk
    rw [stepUser, if_neg hk.1, if_neg hk.2]
  pairs := by
    refine List.pairwise_pair.mpr (fun user value value' => ?_)
    simp only [stepUser_name, stepUser_password]
    cases value.string? <;> cases value'.string? <;> rfl

theorem independent_stepMember :
    Independent stepMember [lit "secure", lit "port", lit "users"] where
  other config key value hk := by
    simp only [List.mem_cons, List.not_mem_nil, or_false, not_or] at hk
    rw [stepMember, if_neg hk.1, if_neg hk.2.1, if_neg hk.2.2]
  pairs := by
    have hport : Swaps stepMember (lit "secure") (lit "port") := by
      intro config value value'
      simp only [stepMember_secure, stepMember_port]
      cases value.bool? <;> cases value'.int64? <;> rfl
    have husers : Swaps stepMember (lit "secure") (lit "users") := by
      intro config value value'
      simp only [stepMember_secure, stepMember_users]
      cases value.bool? with
      | none => cases value'.array? <;> simp
      | some b =>
        cases value'.array? with
        | none => rfl
        | some l => cases hl : (readUsers config.users l).toOption <;> simp [hl]
    have husers' : Swaps stepMember (lit "port") (lit "users") := by
      intro config value value'
      simp only [stepMember_port, stepMember_users]
      cases value.int64? with
      | none => cases value'.array? <;> simp
      | some i =>
        cases value'.array? with
        | none => rfl
        | some l => cases hl : (readUsers config.users l).toOption <;> simp [hl]
    simp only [List.pairwise_cons, List.mem_cons, List.not_mem_nil, or_false, forall_eq_or_imp,
      forall_eq, false_implies, implies_true, List.Pairwise.nil, and_true]
    exact ⟨⟨hport, husers⟩, husers'⟩

/-! ## What a configuration means -/

/-- The text of a key, and the empty text when there is none. -/
def textOf (ms : List (Bytes × Json)) (key : Bytes) : Bytes :=
  match ms.lookup key with
  | some (.string s) => s
  | _ => []

/-- The name and the password of a user. -/
def userOf : Json → Option (Bytes × Bytes)
  | .object ms => some (textOf ms (lit "name"), textOf ms (lit "password"))
  | _ => none

/-- The names and the passwords of the objects of an array, in order. -/
def entriesOf (l : List Json) : List (Bytes × Bytes) := l.filterMap userOf

/-- The name and the password of a user are strings. -/
def TextsOk (ms : List (Bytes × Json)) : Prop :=
  ∀ key ∈ [lit "name", lit "password"], ∀ v, (key, v) ∈ ms → v.kind = .string

/-- Every recognised key has a value of its kind, and every user has strings. -/
structure Valid (ms : List (Bytes × Json)) : Prop where
  kinds : ∀ key kind, (key, kind) ∈ CONFIG_VALUE_TYPE_MAP → ∀ v, (key, v) ∈ ms → v.kind = kind
  texts : ∀ l, (lit "users", .array l) ∈ ms → ∀ user, .object user ∈ l → TextsOk user

/-- Every setting is the given value or its default, and every name has the password of its last
entry in the array. -/
structure Means (ms : List (Bytes × Json)) (config : parsed_config) : Prop where
  secure : ∀ b, (lit "secure", .bool_ b) ∈ ms → config.secure = b
  secure_default : lit "secure" ∉ ms.map Prod.fst → config.secure = false
  port : ∀ i, (lit "port", .int64 i) ∈ ms → config.port = i.toInt32
  port_default : lit "port" ∉ ms.map Prod.fst → config.port = 6921
  users : ∀ l, (lit "users", .array l) ∈ ms →
    ∀ name, config.users.find name = (entriesOf l).reverse.lookup name
  users_default : lit "users" ∉ ms.map Prod.fst → config.users = .empty

/-- Every object has each key once, at every level. -/
inductive Distinct : Json → Prop
  | null : Distinct .null
  | bool_ (b : Bool) : Distinct (.bool_ b)
  | int64 (i : Int64) : Distinct (.int64 i)
  | uint64 (n : UInt64) : Distinct (.uint64 n)
  | double_ (bits : UInt64) : Distinct (.double_ bits)
  | string (s : Bytes) : Distinct (.string s)
  | array {l : List Json} : (∀ v ∈ l, Distinct v) → Distinct (.array l)
  | object {ms : List (Bytes × Json)} : (ms.map Prod.fst).Nodup → (∀ m ∈ ms, Distinct m.2) →
    Distinct (.object ms)

/-- The same value, up to the order of the members of every object in it. -/
inductive Reordered : Json → Json → Prop
  | same (v : Json) : Reordered v v
  | array {l l' : List Json} : List.Forall₂ Reordered l l' → Reordered (.array l) (.array l')
  | object {ms ms' : List (Bytes × Json)} : (ms.map Prod.fst).Perm (ms'.map Prod.fst) →
    (∀ key v v', (key, v) ∈ ms → (key, v') ∈ ms' → Reordered v v') →
    Reordered (.object ms) (.object ms')

theorem Distinct.nodup {ms : List (Bytes × Json)} (h : Distinct (.object ms)) :
    (ms.map Prod.fst).Nodup := by
  cases h with
  | object hnodup _ => exact hnodup

theorem Distinct.member {ms : List (Bytes × Json)} (h : Distinct (.object ms)) {key : Bytes}
    {v : Json} (hv : (key, v) ∈ ms) : Distinct v := by
  cases h with
  | object _ hms => exact hms _ hv

theorem Distinct.item {l : List Json} (h : Distinct (.array l)) {v : Json} (hv : v ∈ l) :
    Distinct v := by
  cases h with
  | array hl => exact hl v hv

/-! ## A user -/

section
variable {ms : List (Bytes × Json)}

theorem toOption_readUser_by_keys (hms : (ms.map Prod.fst).Nodup) :
    (readUser [] [] ms).toOption =
      readKeys stepUser ms ([], []) [lit "name", lit "password"] :=
  (toOption_readUser ([], []) ms).trans
    (readAll_eq_readKeys independent_stepUser (by decide) hms _)

/-- A key with a string gives its text, and a key that is missing gives none. -/
theorem lookup_text (hms : (ms.map Prod.fst).Nodup) {key : Bytes}
    (h : ∀ v, (key, v) ∈ ms → v.kind = .string) :
    ms.lookup key = none ∧ textOf ms key = [] ∨
      ms.lookup key = some (.string (textOf ms key)) := by
  cases hl : ms.lookup key with
  | none => exact Or.inl ⟨rfl, by rw [textOf, hl]⟩
  | some v =>
    have hk := h v ((lookup_eq_some_iff hms).mp hl)
    cases v with
    | string s => exact Or.inr (by rw [textOf, hl])
    | _ => cases hk

theorem readKey_name (hms : (ms.map Prod.fst).Nodup) (p : Bytes)
    (h : ∀ v, (lit "name", v) ∈ ms → v.kind = .string) :
    readKey stepUser ms ([], p) (lit "name") = some (textOf ms (lit "name"), p) := by
  unfold readKey
  rcases lookup_text hms h with ⟨hl, ht⟩ | hl
  · rw [hl, ht]
  · simp only [hl, stepUser_name]
    rfl

theorem readKey_password (hms : (ms.map Prod.fst).Nodup) (n : Bytes)
    (h : ∀ v, (lit "password", v) ∈ ms → v.kind = .string) :
    readKey stepUser ms (n, []) (lit "password") = some (n, textOf ms (lit "password")) := by
  unfold readKey
  rcases lookup_text hms h with ⟨hl, ht⟩ | hl
  · rw [hl, ht]
  · simp only [hl, stepUser_password]
    rfl

theorem toOption_readUser_of_ok (hms : (ms.map Prod.fst).Nodup) (h : TextsOk ms) :
    (readUser [] [] ms).toOption =
      some (textOf ms (lit "name"), textOf ms (lit "password")) := by
  rw [toOption_readUser_by_keys hms, readKeys, readKey_name hms _ (h _ (by simp)),
    Option.bind_some, readKeys, readKey_password hms _ (h _ (by simp)), Option.bind_some]
  rfl

/-- A name or a password of another kind stops the reading. -/
theorem toOption_readUser_of_not (hms : (ms.map Prod.fst).Nodup) (h : ¬ TextsOk ms) :
    (readUser [] [] ms).toOption = none := by
  simp only [TextsOk, not_forall] at h
  obtain ⟨key, hkey, v, hv, hkind⟩ := h
  have hl := (lookup_eq_some_iff hms).mpr hv
  have hstring : v.string? = none := by
    cases v with
    | string s => exact absurd rfl hkind
    | _ => rfl
  rw [toOption_readUser_by_keys hms]
  refine readKeys_eq_none hkey (fun user => ?_) _
  have hread : readKey stepUser ms user key = stepUser user key v := by
    rw [readKey, hl]
  rw [hread]
  simp only [List.mem_cons, List.not_mem_nil, or_false] at hkey
  rcases hkey with rfl | rfl
  · rw [stepUser_name, hstring, Option.map_none]
  · rw [stepUser_password, hstring, Option.map_none]

end

/-! ## The users -/

section
variable {l : List Json}

theorem toOption_readUsers_cons (users : UserMap) (v : Json) (l : List Json) :
    (readUsers users (v :: l)).toOption =
      match v with
      | .object ms => (readUser [] [] ms).toOption.bind (fun e =>
          (readUsers (users.assign e.1 e.2) l).toOption)
      | _ => (readUsers users l).toOption := by
  cases v with
  | object ms =>
    simp only [readUsers]
    cases readUser [] [] ms <;> rfl
  | _ => rfl

theorem toOption_readUsers_of_ok (hd : ∀ v ∈ l, Distinct v)
    (h : ∀ user, .object user ∈ l → TextsOk user) (users : UserMap) :
    (readUsers users l).toOption =
      some ((entriesOf l).foldl (fun m e => m.assign e.1 e.2) users) := by
  induction l generalizing users with
  | nil => rfl
  | cons v l ih =>
    have hrest := ih (fun x hx => hd x (List.mem_cons_of_mem _ hx))
      (fun user hu => h user (List.mem_cons_of_mem _ hu))
    rw [toOption_readUsers_cons]
    cases v with
    | object ms =>
      have hms := (hd (.object ms) List.mem_cons_self).nodup
      simp only
      rw [toOption_readUser_of_ok hms (h ms List.mem_cons_self), Option.bind_some, hrest]
      rfl
    | _ => exact hrest users

theorem toOption_readUsers_of_not (hd : ∀ v ∈ l, Distinct v)
    (h : ¬ ∀ user, .object user ∈ l → TextsOk user) (users : UserMap) :
    (readUsers users l).toOption = none := by
  induction l generalizing users with
  | nil => exact absurd (fun user hu => nomatch hu) h
  | cons v l ih =>
    have hdrest : ∀ x ∈ l, Distinct x := fun x hx => hd x (List.mem_cons_of_mem _ hx)
    rw [toOption_readUsers_cons]
    cases v with
    | object ms =>
      have hms := (hd (.object ms) List.mem_cons_self).nodup
      simp only
      by_cases hok : TextsOk ms
      · rw [toOption_readUser_of_ok hms hok, Option.bind_some]
        refine ih hdrest (fun hall => h (fun user hu => ?_)) _
        rcases List.mem_cons.mp hu with hu | hu
        · cases hu
          exact hok
        · exact hall user hu
      · rw [toOption_readUser_of_not hms hok, Option.bind_none]
    | _ =>
      refine ih hdrest (fun hall => h (fun user hu => ?_)) users
      rcases List.mem_cons.mp hu with hu | hu
      · cases hu
      · exact hall user hu

end

/-- Every name of the map has the password of its last entry. -/
theorem find_entries (entries : List (Bytes × Bytes)) (name : Bytes) :
    (entries.foldl (fun m e => m.assign e.1 e.2) UserMap.empty).find name =
      entries.reverse.lookup name := by
  have hlookup : ∀ l : List (Bytes × Bytes),
      (l.find? (fun e => decide (e.1 = name))).map Prod.snd = l.lookup name := by
    intro l
    induction l with
    | nil => rfl
    | cons e l ih =>
      rw [List.find?_cons, lookup_cons_ite, ← ih]
      by_cases h : e.1 = name
      · simp [h]
      · simp [h, Ne.symm h]
  rw [find_foldl_assign Prod.fst Prod.snd, hlookup]
  exact Option.or_none

/-! ## The configuration -/

section
variable {ms : List (Bytes × Json)}

theorem toOption_readMembers_by_keys (hms : (ms.map Prod.fst).Nodup) (config : parsed_config) :
    (readMembers config ms).toOption =
      readKeys stepMember ms config [lit "secure", lit "port", lit "users"] :=
  (toOption_readMembers config ms).trans
    (readAll_eq_readKeys independent_stepMember (by decide) hms _)

theorem mem_type_map_iff {key : Bytes} {kind : Kind} : (key, kind) ∈ CONFIG_VALUE_TYPE_MAP ↔
    key = lit "secure" ∧ kind = .bool_ ∨ key = lit "port" ∧ kind = .int64 ∨
      key = lit "users" ∧ kind = .array := by
  simp [CONFIG_VALUE_TYPE_MAP]

theorem read_secure (hms : (ms.map Prod.fst).Nodup) (hv : Valid ms) (config : parsed_config) :
    ∃ b, readKey stepMember ms config (lit "secure") = some { config with secure := b } ∧
      (∀ b', (lit "secure", .bool_ b') ∈ ms → b = b') ∧
      (lit "secure" ∉ ms.map Prod.fst → b = config.secure) := by
  rcases readKey_cases stepMember hms config (lit "secure") with ⟨hno, hread⟩ | ⟨v, hm, hall, hread⟩
  · exact ⟨config.secure, hread, fun b' hb => absurd (List.mem_map_of_mem hb) hno, fun _ => rfl⟩
  · have hkind := hv.kinds _ _ (mem_type_map_iff.mpr (Or.inl ⟨rfl, rfl⟩)) v hm
    cases v with
    | bool_ b =>
      refine ⟨b, hread.trans (stepMember_secure _ _), fun b' hb => ?_, fun hno => ?_⟩
      · exact (Json.bool_.inj (hall _ hb)).symm
      · exact absurd (List.mem_map_of_mem hm) hno
    | _ => cases hkind

theorem read_port (hms : (ms.map Prod.fst).Nodup) (hv : Valid ms) (config : parsed_config) :
    ∃ p, readKey stepMember ms config (lit "port") = some { config with port := p } ∧
      (∀ i, (lit "port", .int64 i) ∈ ms → p = i.toInt32) ∧
      (lit "port" ∉ ms.map Prod.fst → p = config.port) := by
  rcases readKey_cases stepMember hms config (lit "port") with ⟨hno, hread⟩ | ⟨v, hm, hall, hread⟩
  · exact ⟨config.port, hread, fun i hi => absurd (List.mem_map_of_mem hi) hno, fun _ => rfl⟩
  · have hkind := hv.kinds _ _ (mem_type_map_iff.mpr (Or.inr (Or.inl ⟨rfl, rfl⟩))) v hm
    cases v with
    | int64 i =>
      refine ⟨i.toInt32, hread.trans (stepMember_port _ _), fun j hj => ?_, fun hno => ?_⟩
      · rw [Json.int64.inj (hall _ hj)]
      · exact absurd (List.mem_map_of_mem hm) hno
    | _ => cases hkind

theorem read_users (hd : Distinct (.object ms)) (hv : Valid ms) (config : parsed_config) :
    ∃ m, readKey stepMember ms config (lit "users") = some { config with users := m } ∧
      (∀ l, (lit "users", .array l) ∈ ms →
        m = (entriesOf l).foldl (fun m e => m.assign e.1 e.2) config.users) ∧
      (lit "users" ∉ ms.map Prod.fst → m = config.users) := by
  rcases readKey_cases stepMember hd.nodup config (lit "users") with
    ⟨hno, hread⟩ | ⟨v, hm, hall, hread⟩
  · exact ⟨config.users, hread, fun l hl => absurd (List.mem_map_of_mem hl) hno, fun _ => rfl⟩
  · have hkind := hv.kinds _ _ (mem_type_map_iff.mpr (Or.inr (Or.inr ⟨rfl, rfl⟩))) v hm
    cases v with
    | array l =>
      have hitems : ∀ v ∈ l, Distinct v := fun v hv => (hd.member hm).item hv
      refine ⟨(entriesOf l).foldl (fun m e => m.assign e.1 e.2) config.users, ?_,
        fun l' hl' => ?_, fun hno => ?_⟩
      · rw [hread, stepMember_users, Json.array?, Option.bind_some,
          toOption_readUsers_of_ok hitems (hv.texts l hm)]
        rfl
      · rw [Json.array.inj (hall _ hl')]
      · exact absurd (List.mem_map_of_mem hm) hno
    | _ => cases hkind

theorem readMembers_of_valid (hd : Distinct (.object ms)) (hv : Valid ms) :
    ∃ config, (readMembers {} ms).toOption = some config ∧ Means ms config := by
  obtain ⟨b, hb, hsecure, hsecure'⟩ := read_secure hd.nodup hv {}
  obtain ⟨p, hp, hport, hport'⟩ := read_port hd.nodup hv { secure := b }
  obtain ⟨m, hm, husers, husers'⟩ := read_users hd hv { secure := b, port := p }
  refine ⟨⟨b, p, m⟩, ?_, ?_⟩
  · rw [toOption_readMembers_by_keys hd.nodup]
    simp only [readKeys, hb, hp, hm, Option.bind_some]
  · exact {
      secure := hsecure
      secure_default := hsecure'
      port := hport
      port_default := hport'
      users := fun l hl name => by
        rw [husers l hl]
        exact find_entries (entriesOf l) name
      users_default := husers' }

theorem stepMember_of_another_kind {key : Bytes} {kind : Kind} {v : Json}
    (hmap : (key, kind) ∈ CONFIG_VALUE_TYPE_MAP) (hv : v.kind ≠ kind) (config : parsed_config) :
    stepMember config key v = none := by
  rcases mem_type_map_iff.mp hmap with ⟨rfl, rfl⟩ | ⟨rfl, rfl⟩ | ⟨rfl, rfl⟩
  · rw [stepMember_secure]
    cases v with
    | bool_ b => exact absurd rfl hv
    | _ => rfl
  · rw [stepMember_port]
    cases v with
    | int64 i => exact absurd rfl hv
    | _ => rfl
  · rw [stepMember_users]
    cases v with
    | array l => exact absurd rfl hv
    | _ => rfl

/-- A value of another kind, and a user with a name or a password that is no string, stop the
reading. -/
theorem readMembers_of_not_valid (hd : Distinct (.object ms)) (hv : ¬ Valid ms) :
    (readMembers {} ms).toOption = none := by
  rw [toOption_readMembers_by_keys hd.nodup]
  have hstop : ∀ {key : Bytes} {v : Json}, (key, v) ∈ ms →
      key ∈ [lit "secure", lit "port", lit "users"] → (∀ config, stepMember config key v = none) →
      readKeys stepMember ms {} [lit "secure", lit "port", lit "users"] = none := by
    intro key v hm hkey hnone
    refine readKeys_eq_none hkey (fun config => ?_) _
    rw [readKey, (lookup_eq_some_iff hd.nodup).mpr hm]
    exact hnone config
  by_cases hkinds : ∀ key kind, (key, kind) ∈ CONFIG_VALUE_TYPE_MAP → ∀ v, (key, v) ∈ ms →
      v.kind = kind
  · have htexts : ¬ ∀ l, (lit "users", .array l) ∈ ms → ∀ user, .object user ∈ l → TextsOk user :=
      fun h => hv ⟨hkinds, h⟩
    obtain ⟨l, htexts⟩ := not_forall.mp htexts
    obtain ⟨hm, hnot⟩ := Classical.not_imp.mp htexts
    refine hstop hm (by simp) (fun config => ?_)
    rw [stepMember_users, Json.array?, Option.bind_some,
      toOption_readUsers_of_not (fun v hv => (hd.member hm).item hv) hnot]
    rfl
  · simp only [not_forall] at hkinds
    obtain ⟨key, kind, hmap, v, hm, hkind⟩ := hkinds
    refine hstop hm ?_ (stepMember_of_another_kind hmap hkind)
    rcases mem_type_map_iff.mp hmap with ⟨rfl, -⟩ | ⟨rfl, -⟩ | ⟨rfl, -⟩ <;> simp

end

/-! ## The order of the members -/

section
variable {v v' : Json} (h : Reordered v v')
include h

theorem Distinct.reordered (hd : Distinct v) : Distinct v' := by
  induction hd generalizing v' with
  | array hl ih =>
    cases h with
    | same => exact .array hl
    | array hitems =>
      refine .array (fun x' hx' => ?_)
      obtain ⟨i, hi, rfl⟩ := List.getElem_of_mem hx'
      have hlength := hitems.length_eq
      exact ih _ (List.getElem_mem (hlength ▸ hi)) (hitems.get (hlength ▸ hi) hi)
  | object hnodup hms ih =>
    cases h with
    | same => exact .object hnodup hms
    | object hkeys hvalues =>
      refine .object (hkeys.nodup_iff.mp hnodup) (fun m' hm' => ?_)
      obtain ⟨m, hm, hkey⟩ := List.mem_map.mp (hkeys.mem_iff.mpr (List.mem_map_of_mem hm'))
      exact ih m hm (hvalues m'.1 m.2 m'.2 (hkey ▸ hm) hm')
  | _ =>
    cases h
    constructor

theorem Reordered.bool? : v'.bool? = v.bool? := by
  cases h <;> rfl

theorem Reordered.int64? : v'.int64? = v.int64? := by
  cases h <;> rfl

theorem Reordered.string? : v'.string? = v.string? := by
  cases h <;> rfl

end

section
variable {ms ms' : List (Bytes × Json)} (hd : Distinct (.object ms))
  (h : Reordered (.object ms) (.object ms'))
include hd h

/-- A key is in both objects, with the same value up to the order, or in none of them. -/
theorem readKey_reordered {σ : Type} {step : σ → Bytes → Json → Option σ} {key : Bytes}
    (hstep : ∀ v v', (key, v) ∈ ms → Reordered v v' → ∀ s, step s key v' = step s key v) (s : σ) :
    readKey step ms' s key = readKey step ms s key := by
  cases h with
  | same => rfl
  | object hkeys hvalues =>
    have hnodup' : (ms'.map Prod.fst).Nodup := hkeys.nodup_iff.mp hd.nodup
    rcases readKey_cases step hd.nodup s key with ⟨hno, hread⟩ | ⟨v, hm, -, hread⟩
    · rcases readKey_cases step hnodup' s key with ⟨-, hread'⟩ | ⟨v', hm', -, -⟩
      · rw [hread, hread']
      · exact absurd (hkeys.mem_iff.mpr (List.mem_map_of_mem hm')) hno
    · rcases readKey_cases step hnodup' s key with ⟨hno', -⟩ | ⟨v', hm', -, hread'⟩
      · exact absurd (hkeys.mem_iff.mp (List.mem_map_of_mem hm)) hno'
      · rw [hread, hread']
        exact hstep v v' hm (hvalues key v v' hm hm') s

theorem readUser_reordered : (readUser [] [] ms').toOption = (readUser [] [] ms).toOption := by
  rw [toOption_readUser_by_keys hd.nodup, toOption_readUser_by_keys (hd.reordered h).nodup]
  refine readKeys_congr (fun key hkey => readKey_reordered hd h (fun v v' _ hv user => ?_)) _
  rw [stepUser, stepUser, hv.string?]

end

theorem readUsers_reordered {l l' : List Json} (hd : ∀ v ∈ l, Distinct v)
    (h : List.Forall₂ Reordered l l') (users : UserMap) :
    (readUsers users l').toOption = (readUsers users l).toOption := by
  induction h generalizing users with
  | nil => rfl
  | @cons v v' l l' hv _ ih =>
    have hrest := ih (fun x hx => hd x (List.mem_cons_of_mem _ hx))
    rw [toOption_readUsers_cons, toOption_readUsers_cons]
    cases hv with
    | same =>
      cases v with
      | object ms =>
        simp only [hrest]
      | _ => exact hrest users
    | array _ => exact hrest users
    | object hkeys hvalues =>
      simp only [hrest]
      rw [readUser_reordered (hd _ List.mem_cons_self) (.object hkeys hvalues)]

/-- The members of every object can come in any order. -/
theorem readMembers_reordered {ms ms' : List (Bytes × Json)} (hd : Distinct (.object ms))
    (h : Reordered (.object ms) (.object ms')) :
    (readMembers {} ms').toOption = (readMembers {} ms).toOption := by
  rw [toOption_readMembers_by_keys hd.nodup,
    toOption_readMembers_by_keys (hd.reordered h).nodup]
  refine readKeys_congr (fun key hkey => readKey_reordered hd h (fun v v' hm hv config => ?_)) _
  have husers : v'.array?.bind (fun l => (readUsers config.users l).toOption.map
        (fun users => { config with users })) =
      v.array?.bind (fun l => (readUsers config.users l).toOption.map
        (fun users => { config with users })) := by
    cases hv with
    | same => rfl
    | array hitems =>
      simp only [Json.array?, Option.bind_some]
      rw [readUsers_reordered (fun x hx => (hd.member hm).item hx) hitems]
    | object _ _ => rfl
  rw [stepMember, stepMember, hv.bool?, hv.int64?, husers]

/-! ## The other keys -/

/-- A user without the members that are not read. -/
def knownUser : Json → Json
  | .object ms => .object (ms.filter (fun m => m.1 = lit "name" ∨ m.1 = lit "password"))
  | v => v

def knownUsers : Json → Json
  | .array l => .array (l.map knownUser)
  | v => v

/-- A configuration without the members that are not read, and with such users. -/
def known (ms : List (Bytes × Json)) : List (Bytes × Json) :=
  (ms.filter (fun m => (CONFIG_VALUE_TYPE_MAP.lookup m.1).isSome)).map
    (fun m => (m.1, knownUsers m.2))

theorem readUser_known (n p : Bytes) (ms : List (Bytes × Json)) :
    readUser n p (ms.filter (fun m => m.1 = lit "name" ∨ m.1 = lit "password")) =
      readUser n p ms := by
  induction ms generalizing n p with
  | nil => rfl
  | cons m ms ih =>
    by_cases hname : m.1 = lit "name"
    · rw [List.filter_cons_of_pos (by simp [hname]), readUser, readUser, if_pos hname,
        if_pos hname]
      simp only [ih]
    by_cases hpassword : m.1 = lit "password"
    · rw [List.filter_cons_of_pos (by simp [hpassword]), readUser, readUser, if_neg hname,
        if_neg hname, if_pos hpassword, if_pos hpassword]
      simp only [ih]
    · rw [List.filter_cons_of_neg (by simp [hname, hpassword]), ih, readUser, if_neg hname,
        if_neg hpassword]

theorem readUsers_known (users : UserMap) (l : List Json) :
    readUsers users (l.map knownUser) = readUsers users l := by
  induction l generalizing users with
  | nil => rfl
  | cons v l ih =>
    cases v with
    | object ms =>
      simp only [List.map_cons, knownUser, readUsers, readUser_known, ih]
    | _ => exact ih users

theorem readMember_known (config : parsed_config) (key : Bytes) (v : Json) :
    readMember config key (knownUsers v) = readMember config key v := by
  cases v with
  | array l =>
    simp only [knownUsers, readMember, Json.kind, readUsers_known]
    rfl
  | _ => rfl

/-- What is not read changes nothing. -/
theorem readMembers_known (config : parsed_config) (ms : List (Bytes × Json)) :
    readMembers config (known ms) = readMembers config ms := by
  unfold known
  induction ms generalizing config with
  | nil => rfl
  | cons m ms ih =>
    cases hkey : CONFIG_VALUE_TYPE_MAP.lookup m.1 with
    | some kind =>
      rw [List.filter_cons_of_pos (by simp [hkey]), List.map_cons, readMembers, readMembers,
        readMember_known]
      simp only [ih]
    | none =>
      have hskip : readMember config m.1 m.2 = .ok config := by
        unfold readMember
        rw [hkey]
      rw [List.filter_cons_of_neg (by simp [hkey]), ih, readMembers, hskip]

/-! ## The reading of a configuration -/

/-- The reading never ends in the branch that should not happen, it fails on a value of another
kind only, and what it gives is what the configuration means, whatever the order of the members and
with or without the keys that are not read. -/
theorem the_configuration_is_read_in_any_order (ms : List (Bytes × Json))
    (hd : Distinct (.object ms)) :
    read_json_config (.parsed (.object ms)) ≠ .error shouldnt_happen ∧
      ((∃ e, read_json_config (.parsed (.object ms)) = .error e) ↔ ¬ Valid ms) ∧
      (∀ config, read_json_config (.parsed (.object ms)) = .ok config → Means ms config) ∧
      (∀ ms', Reordered (.object ms) (.object ms') →
        (read_json_config (.parsed (.object ms'))).toOption =
          (read_json_config (.parsed (.object ms))).toOption) ∧
      read_json_config (.parsed (.object (known ms))) =
        read_json_config (.parsed (.object ms)) := by
  refine ⟨readMembers_ne_shouldnt_happen {} ms, ⟨?_, fun hv => ?_⟩, fun config hconfig => ?_,
    fun ms' h => readMembers_reordered hd h, readMembers_known {} ms⟩
  · rintro ⟨e, he⟩ hv
    obtain ⟨config, hread, -⟩ := readMembers_of_valid hd hv
    cases (congrArg Except.toOption he).symm.trans hread
  · have hread := readMembers_of_not_valid hd hv
    cases hr : readMembers {} ms with
    | error e => exact ⟨e, hr⟩
    | ok config => cases (congrArg Except.toOption hr).symm.trans hread
  · have hsome : (readMembers {} ms).toOption = some config := congrArg Except.toOption hconfig
    by_cases hv : Valid ms
    · obtain ⟨config', hread, hmeans⟩ := readMembers_of_valid hd hv
      exact Option.some.inj (hread.symm.trans hsome) ▸ hmeans
    · cases (readMembers_of_not_valid hd hv).symm.trans hsome

/-- A file with the users first. -/
def USERS_FIRST : List (Bytes × Json) :=
  [(lit "users", .array DEFAULT_USERS), (lit "port", .int64 6921), (lit "secure", .bool_ false)]

theorem distinct_users_first : Distinct (.object USERS_FIRST) := by
  refine .object (by decide) (fun m hm => ?_)
  simp only [USERS_FIRST, List.mem_cons, List.not_mem_nil, or_false] at hm
  rcases hm with rfl | rfl | rfl
  · refine .array (fun v hv => ?_)
    obtain rfl := List.mem_singleton.mp hv
    refine .object (by decide) (fun m hm => ?_)
    simp only [List.mem_cons, List.not_mem_nil, or_false] at hm
    rcases hm with rfl | rfl <;> exact .string _
  · exact .int64 _
  · exact .bool_ _

theorem reordered_users_first : Reordered (.object USERS_FIRST) (.object DEFAULT_CONFIG) := by
  refine .object (by decide) (fun key v v' hv hv' => ?_)
  have hmem : (key, v') ∈ USERS_FIRST := by
    simp only [DEFAULT_CONFIG, USERS_FIRST, List.mem_cons, List.not_mem_nil, or_false] at hv' ⊢
    tauto
  have hsome := (lookup_eq_some_iff distinct_users_first.nodup).mpr hv
  obtain rfl : v = v' := Option.some.inj
    (hsome.symm.trans ((lookup_eq_some_iff distinct_users_first.nodup).mpr hmem))
  exact .same v

theorem the_configuration_is_read_with_the_users_first :
    (read_json_config (.parsed (.object DEFAULT_CONFIG))).toOption =
        (read_json_config (.parsed (.object USERS_FIRST))).toOption ∧
      Means USERS_FIRST make_default_json := by
  obtain ⟨-, -, hmeans, horder, -⟩ :=
    the_configuration_is_read_in_any_order USERS_FIRST distinct_users_first
  exact ⟨horder DEFAULT_CONFIG reordered_users_first, hmeans make_default_json rfl⟩

end asio_ftp.config
