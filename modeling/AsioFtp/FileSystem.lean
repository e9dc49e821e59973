-- The laws of the file systems. A user has a tree of names: the abstract model, which knows no
-- rows, no ids and no path texts. The table refines the tree of each user, as long as no create of
-- the user clashes and every removal of a directory takes what is below it.
import AsioFtp.Isolation
import AsioFtp.Objects
import AsioFtp.Lib.FileTrees

namespace asio_ftp.file_system

open helpers paths sqlite_wrapper fs_objects histories tree objects isolation
  isolation.PrivateStore filetrees

/-! ## Paths of names -/

/-- A name of an object: what can stand between two slashes. -/
abbrev Name := {n : Bytes // Segment n}

/-- The text of a path of names. -/
def path (d : List Name) : Bytes := pathOf (d.map Subtype.val)

def toName (s : Bytes) : Option Name := if h : Segment s then some ⟨s, h⟩ else none

def namesOf (p : Bytes) : List Name :=
  if p = [slash] then [] else (partsOf p).filterMap toName

/-- The names of a path, if it is the text of some. -/
def directoryOf (p : Bytes) : Option (List Name) :=
  if path (namesOf p) = p then some (namesOf p) else none

/-- The directory and the name that a call means. -/
def place (n p : Bytes) : Option (List Name × Name) :=
  (directoryOf p).bind fun d => (toName n).map fun m => (d, m)

theorem segments (d : List Name) : ∀ s ∈ d.map Subtype.val, Segment s := by
  intro s hs
  obtain ⟨n, -, rfl⟩ := List.mem_map.mp hs
  exact n.2

theorem canonical_path (d : List Name) : Canonical (path d) := ⟨_, segments d, rfl⟩

theorem path_eq_root {d : List Name} : path d = [slash] ↔ d = [] := by
  rw [path, pathOf_eq_root (segments d), List.map_eq_nil_iff]

theorem path_snoc (d : List Name) (n : Name) : path (d ++ [n]) = joinPath (path d) n.val := by
  rw [path, List.map_append]
  exact pathOf_snoc (segments d) n.val

@[simp] theorem toName_val (n : Name) : toName n.val = some n := dif_pos n.2

theorem toName_eq_some_iff {s : Bytes} {n : Name} : toName s = some n ↔ n.val = s := by
  constructor
  · intro h
    unfold toName at h
    split at h
    · cases h
      rfl
    · cases h
  · rintro rfl
    exact toName_val n

theorem namesOf_path (d : List Name) : namesOf (path d) = d := by
  unfold namesOf
  by_cases h : d = []
  · rw [if_pos (path_eq_root.mpr h), h]
  · rw [if_neg (mt path_eq_root.mp h), path,
      partsOf_pathOf (mt List.map_eq_nil_iff.mp h) (segments d), List.filterMap_map]
    exact (List.filterMap_congr (fun n _ => toName_val n)).trans List.filterMap_some

theorem directoryOf_eq_some_iff {p : Bytes} {d : List Name} :
    directoryOf p = some d ↔ path d = p := by
  unfold directoryOf
  constructor
  · intro h
    split at h
    · next hp => exact Option.some.inj h ▸ hp
    · cases h
  · rintro rfl
    rw [namesOf_path, if_pos rfl]

theorem path_inj {d e : List Name} (h : path d = path e) : d = e :=
  Option.some.inj ((directoryOf_eq_some_iff.mpr h).symm.trans (directoryOf_eq_some_iff.mpr rfl))

theorem exists_path {p : Bytes} (h : Canonical p) : ∃ d, path d = p := by
  obtain ⟨segs, hs, rfl⟩ := h
  refine ⟨segs.attach.map (fun s => ⟨s.1, hs s.1 s.2⟩), ?_⟩
  rw [path, List.map_map]
  exact congrArg pathOf segs.attach_map_subtype_val

theorem place_eq_some_iff {n p : Bytes} {d : List Name} {m : Name} :
    place n p = some (d, m) ↔ path d = p ∧ m.val = n := by
  unfold place
  simp only [Option.bind_eq_some_iff, Option.map_eq_some_iff, Prod.mk.injEq,
    directoryOf_eq_some_iff, toName_eq_some_iff]
  constructor
  · rintro ⟨e, he, k, hk, rfl, rfl⟩
    exact ⟨he, hk⟩
  · rintro ⟨hd, hm⟩
    exact ⟨d, hd, m, hm, rfl, rfl⟩

theorem exists_place {n p : Bytes} (hp : Canonical p) (hn : Segment n) :
    ∃ d m, path d = p ∧ m.val = n ∧ place n p = some (d, m) := by
  obtain ⟨d, hd⟩ := exists_path hp
  exact ⟨d, ⟨n, hn⟩, hd, rfl, place_eq_some_iff.mpr ⟨hd, rfl⟩⟩

/-- What lies below a path has the names of that path first. -/
theorem under_path_iff {a b : List Name} (h : a ≠ []) : Under (path a) (path b) ↔ a <+: b := by
  have hne : a.map Subtype.val ≠ [] := mt List.map_eq_nil_iff.mp h
  constructor
  · rintro (he | ⟨rest, he⟩)
    · rw [path_inj he]
    · have hb : b.map Subtype.val ≠ [] := by
        intro hnil
        have hroot : path b = [slash] := path_eq_root.mpr (List.map_eq_nil_iff.mp hnil)
        have hlen := congrArg List.length (he.trans hroot)
        obtain ⟨tail, ht⟩ := pathOf_head (a.map Subtype.val)
        simp only [path, ht, List.length_append, List.length_cons, List.length_nil] at hlen
        omega
      have hparts : b.map Subtype.val = a.map Subtype.val ++ rest.splitOn slash := by
        rw [← partsOf_pathOf hb (segments b), ← partsOf_pathOf hne (segments a)]
        change partsOf (path b) = partsOf (path a) ++ _
        rw [← he, List.append_assoc, List.singleton_append, partsOf, List.splitOn_append_cons_self,
          List.tail_append_of_ne_nil (by simp), partsOf]
      obtain ⟨front, back, rfl, hfront, -⟩ := List.map_eq_append_iff.mp hparts
      rw [Subtype.val_injective.list_map hfront]
      exact List.prefix_append ..
  · rintro ⟨rest, rfl⟩
    cases rest with
    | nil => exact Or.inl (by rw [List.append_nil])
    | cons m rest =>
      refine Or.inr ⟨m.val ++ (rest.map Subtype.val).flatMap (slash :: ·), ?_⟩
      have hne' : (a ++ m :: rest).map Subtype.val ≠ [] := mt List.map_eq_nil_iff.mp (by simp)
      rw [path, path, pathOf, pathOf, if_neg hne, if_neg hne', List.map_append,
        List.flatMap_append, List.append_assoc]
      rfl

/-- The path of an object is below the directory of a call where its names are. -/
theorem under_join_iff {d e : List Name} (m : Name) :
    Under (joinPath (path d) m.val) (path e) ↔ d ++ [m] <+: e := by
  rw [← path_snoc, under_path_iff (by simp)]

theorem snoc_eq_snoc_iff {d e : List Name} {m k : Name} :
    e ++ [k] = d ++ [m] ↔ k.val = m.val ∧ path e = path d := by
  constructor
  · intro h
    obtain ⟨rfl, hk⟩ := List.append_inj' h rfl
    exact ⟨congrArg Subtype.val (List.singleton_inj.mp hk), rfl⟩
  · rintro ⟨hk, hd⟩
    rw [path_inj hd, Subtype.ext hk]

/-! ## The tree of a user -/

/-- What an object is in the tree: a file is its size. -/
def kind (e : Entry) : Node Int := if e.is_directory then .directory else .file e.size

/-- What a user has at a path. The root is always there. -/
def nodeOf (v : PrivateStore) (p : List Name) : Option (Node Int) :=
  match p.getLast? with
  | none => some .directory
  | some n => (v.find n.val (path p.dropLast)).map kind

/-- The tree shows what the user has. -/
def Shows (v : PrivateStore) (t : FileTree Name Int) : Prop := ∀ p, nodeOf v p = t.node p

/-- What is at the place of a call. -/
def at_ (t : FileTree Name Int) (n p : Bytes) : Option (Node Int) :=
  (place n p).bind fun (d, m) => t.node (d ++ [m])

theorem at_ne_none_iff {t : FileTree Name Int} {n p : Bytes} :
    at_ t n p ≠ none ↔ ∃ d m, path d = p ∧ m.val = n ∧ t.node (d ++ [m]) ≠ none := by
  unfold at_
  cases hp : place n p with
  | some x =>
    obtain ⟨d, m⟩ := x
    obtain ⟨rfl, rfl⟩ := place_eq_some_iff.mp hp
    constructor
    · exact fun h => ⟨d, m, rfl, rfl, h⟩
    · rintro ⟨e, k, he, hk, h⟩
      obtain rfl := path_inj he
      obtain rfl := Subtype.ext hk
      exact h
  | none =>
    refine iff_of_false (fun h => h rfl) ?_
    rintro ⟨d, m, hd, hm, -⟩
    exact absurd (hp.symm.trans (place_eq_some_iff.mpr ⟨hd, hm⟩)) (by simp)

/-- A call of the user, on the tree. -/
noncomputable def perform (t : FileTree Name Int) : Call → FileTree Name Int
  | .create n p size is_directory =>
    (place n p).elim t fun (d, m) => t.insert d m (kind ⟨n, p, size, is_directory⟩)
  | .update n p size => (place n p).elim t fun (d, m) => t.rewrite (d ++ [m]) (fun _ => size)
  | .remove n p => (place n p).elim t fun (d, m) => t.erase d m
  | .lookup _ _ => t
  | .list _ => t

/-- What the user sees of a node. -/
structure Looks (n p : Bytes) (x : Node Int) (o : Seen) : Prop where
  found : o.found = true
  name : o.name = c_str n
  path : o.path = c_str p
  kind : o.is_directory = true ↔ x = .directory
  size : ∀ size, x = .file size → o.size = to_string size

/-- What the tree tells to a call: a create finds its directory and no such name, and a listing has
each name of its directory once. -/
def Tells (t : FileTree Name Int) : Call → Outcome → Prop
  | .create n p _ _, o => ∃ ok, o = .done ok ∧ (ok = true ↔ ∃ d m, place n p = some (d, m) ∧
      t.node d = some .directory ∧ t.node (d ++ [m]) = none)
  | .update n p _, o => ∃ ok, o = .done ok ∧ (ok = true ↔ at_ t n p ≠ none)
  | .remove n p, o => ∃ ok, o = .done ok ∧ (ok = true ↔ at_ t n p ≠ none)
  | .lookup n p, o => ∃ s, o = .object s ∧
      ((at_ t n p = none ∧ s = seen {}) ∨ ∃ x, at_ t n p = some x ∧ Looks n p x s)
  | .list p, o => ∃ os names, o = .objects os ∧ names.Nodup ∧
      (∀ m, m ∈ names ↔ ∃ d, directoryOf p = some d ∧ m ∈ t.names d) ∧
      List.Forall₂ (fun (m : Name) s => ∃ x, at_ t m.val p = some x ∧ Looks m.val p x s) names os

/-- The place of a call is one that a create can have. -/
def Placed : Call → Prop
  | .create n p _ _ => Canonical p ∧ Segment n
  | _ => True

theorem placed_call {o : Op} (h : WellFormed o) : Placed (call o) := by
  cases o with
  | create_object uuid now u n p size dir => exact h
  | _ => trivial

/-- The entries of one user have each name and path once, and every place is one of names. -/
structure Rooted (v : PrivateStore) : Prop where
  distinct : (v.map (fun e => (e.name, e.path))).Nodup
  canonical : ∀ e ∈ v, Canonical e.path
  segment : ∀ e ∈ v, Segment e.name

theorem rooted_view {t : Table} (h : Formed t) (u : Bytes) : Rooted (view u t) where
  distinct := by
    rw [view, List.map_map]
    exact t.unique_name_path.sublist (List.filter_sublist.map _)
  canonical := by
    intro e he
    obtain ⟨r, hr, rfl⟩ := List.mem_map.mp he
    exact h.canonical r (List.mem_of_mem_filter hr)
  segment := by
    intro e he
    obtain ⟨r, hr, rfl⟩ := List.mem_map.mp he
    exact h.segment r (List.mem_of_mem_filter hr)

theorem nodeOf_nil (v : PrivateStore) : nodeOf v [] = some .directory := rfl

theorem nodeOf_snoc (v : PrivateStore) (d : List Name) (m : Name) :
    nodeOf v (d ++ [m]) = (v.find m.val (path d)).map kind := by
  unfold nodeOf
  rw [List.getLast?_concat, List.dropLast_concat]

theorem find_eq_some {v : PrivateStore} (hv : Rooted v) {n p : Bytes} {e : Entry} :
    v.find n p = some e ↔ e ∈ v ∧ e.name = n ∧ e.path = p := by
  unfold PrivateStore.find
  constructor
  · intro h
    exact ⟨List.mem_of_find?_eq_some h, by simpa using List.find?_some h⟩
  · rintro ⟨he, rfl, rfl⟩
    cases hf : v.find? (fun x => decide (x.name = e.name ∧ x.path = e.path)) with
    | none => simpa using List.find?_eq_none.mp hf e he
    | some x =>
      have hx : x.name = e.name ∧ x.path = e.path := by simpa using List.find?_some hf
      rw [List.inj_on_of_nodup_map hv.distinct (List.mem_of_find?_eq_some hf) he
        (by rw [hx.1, hx.2])]

theorem find_eq_none {v : PrivateStore} {n p : Bytes} :
    v.find n p = none ↔ ∀ e ∈ v, ¬ (e.name = n ∧ e.path = p) := by
  unfold PrivateStore.find
  rw [List.find?_eq_none]
  simp only [decide_eq_true_eq]

section
variable {v : PrivateStore} {t : FileTree Name Int} (hv : Rooted v) (ht : Shows v t)
include ht

/-- The checks of a create are those of the tree. -/
theorem allows_iff {n p : Bytes} {d : List Name} {m : Name} (hp : place n p = some (d, m)) :
    v.Allows n p ↔ t.node d = some .directory ∧ t.node (d ++ [m]) = none := by
  obtain ⟨rfl, rfl⟩ := place_eq_some_iff.mp hp
  unfold PrivateStore.Allows
  rw [← ht, ← ht, nodeOf_snoc, Option.map_eq_none_iff]
  refine and_congr_left (fun _ => ?_)
  cases d using List.reverseRecOn with
  | nil => exact iff_of_true (fun h => absurd (path_eq_root.mpr rfl) h) rfl
  | append_singleton e k =>
    rw [path_snoc, get_basename_join _ k.2.2, get_parent_path_join (canonical_path e) k.2.2,
      nodeOf_snoc, imp_iff_right (joinPath_ne_root _ k.2)]
    cases v.find k.val (path e) with
    | none => simp
    | some x =>
      unfold kind
      cases hx : x.is_directory <;> simp [hx]

include hv

/-- A lookup of the user finds what is at its place in the tree. -/
theorem find_map_kind (n p : Bytes) : (v.find n p).map kind = at_ t n p := by
  unfold at_
  cases hp : place n p with
  | some x =>
    obtain ⟨d, m⟩ := x
    obtain ⟨rfl, rfl⟩ := place_eq_some_iff.mp hp
    exact (nodeOf_snoc v d m).symm.trans (ht _)
  | none =>
    rw [Option.bind_none, Option.map_eq_none_iff, find_eq_none]
    rintro e he ⟨rfl, rfl⟩
    obtain ⟨d, m, -, -, h⟩ := exists_place (hv.canonical e he) (hv.segment e he)
    rw [hp] at h
    cases h

theorem isSome_find_iff (n p : Bytes) : (v.find n p).isSome = true ↔ at_ t n p ≠ none := by
  rw [← find_map_kind hv ht, ne_eq, Option.map_eq_none_iff, Option.isSome_iff_ne_none]

end

/-! ## One call -/

section
variable {v : PrivateStore} {t : FileTree Name Int} (ht : Shows v t)
include ht

/-- A create that the tree allows, and no other, makes a node. -/
theorem shows_create {n p : Bytes} (hp : Canonical p) (hn : Segment n) (size : Int) (dir : Bool) :
    Shows (v.apply (.create n p size dir)) (perform t (.create n p size dir)) := by
  obtain ⟨d, m, rfl, rfl, hplace⟩ := exists_place hp hn
  have hallows := allows_iff ht hplace
  intro q
  simp only [PrivateStore.apply, perform, hplace, Option.elim_some]
  by_cases ha : v.Allows m.val (path d)
  · rw [if_pos ha, FileTree.node_insert _ _ _ (hallows.mp ha), ← ht]
    cases q using List.reverseRecOn with
    | nil => rw [nodeOf_nil, nodeOf_nil, if_neg (by simp)]
    | append_singleton e k =>
      have hsnoc : PrivateStore.find (v ++ [⟨m.val, path d, size, dir⟩]) k.val (path e) =
          (v.find k.val (path e)).or
            (if m.val = k.val ∧ path d = path e then some ⟨m.val, path d, size, dir⟩ else none) := by
        unfold PrivateStore.find
        rw [List.find?_append, List.find?_singleton]
        simp only [decide_eq_true_eq]
      rw [nodeOf_snoc, nodeOf_snoc, hsnoc]
      by_cases hq : e ++ [k] = d ++ [m]
      · obtain ⟨hk, he⟩ := snoc_eq_snoc_iff.mp hq
        rw [if_pos hq, hk, he, ha.2, if_pos ⟨rfl, rfl⟩]
        rfl
      · have hno : ¬ (m.val = k.val ∧ path d = path e) :=
          fun h => hq (snoc_eq_snoc_iff.mpr ⟨h.1.symm, h.2.symm⟩)
        rw [if_neg hno, if_neg hq, Option.or_none]
  · rw [if_neg ha, FileTree.insert_of_not _ _ _ (fun h => ha (hallows.mpr h))]
    exact ht q

variable (hv : Rooted v)
include hv

/-- A size update changes the size of the file at its place. -/
theorem shows_update (n p : Bytes) (size : Int) :
    Shows (v.apply (.update n p size)) (perform t (.update n p size)) := by
  have hfind : ∀ m q, (v.apply (.update n p size)).find m q =
      (v.find m q).map (fun e => if e.name = n ∧ e.path = p then { e with size } else e) := by
    intro m q
    simp only [PrivateStore.apply, PrivateStore.find, List.find?_map]
    congr 2
    funext e
    simp only [Function.comp]
    split <;> rfl
  intro q
  cases q using List.reverseRecOn with
  | nil => rw [nodeOf_nil, FileTree.root]
  | append_singleton e k =>
    rw [nodeOf_snoc, hfind]
    simp only [perform]
    cases hplace : place n p with
    | none =>
      rw [Option.elim_none, ← ht, nodeOf_snoc]
      cases hf : v.find k.val (path e) with
      | none => rfl
      | some x =>
        have hx := ((find_eq_some hv).mp hf).1
        rw [Option.map_some, if_neg]
        rintro ⟨rfl, rfl⟩
        obtain ⟨d, m, -, -, h⟩ := exists_place (hv.canonical x hx) (hv.segment x hx)
        rw [hplace] at h
        cases h
    | some y =>
      obtain ⟨d, m⟩ := y
      obtain ⟨rfl, rfl⟩ := place_eq_some_iff.mp hplace
      rw [Option.elim_some, FileTree.node_rewrite, ← ht, nodeOf_snoc]
      cases hf : v.find k.val (path e) with
      | none => rfl
      | some x =>
        obtain ⟨-, hname, hpath⟩ := (find_eq_some hv).mp hf
        simp only [Option.map_some, hname, hpath, snoc_eq_snoc_iff, kind]
        cases hd : x.is_directory <;> split <;> simp [hd]

/-- A removal takes what is below its place: the pattern of a directory is apt for each other path
that the user has. -/
def Precise (v : PrivateStore) : Call → Prop
  | .remove n p => ∀ o, v.find n p = some o → o.is_directory = true → ∀ e ∈ v,
      ¬ (e.name = n ∧ e.path = p) → Apt (joinPath p n) e.path
  | _ => True

omit ht in
theorem find_filter (keep : Entry → Bool) (n p : Bytes) :
    PrivateStore.find (v.filter keep) n p = (v.find n p).filter keep := by
  have hkept : Rooted (v.filter keep) :=
    ⟨hv.distinct.sublist (List.filter_sublist.map _),
      fun e he => hv.canonical e (List.mem_of_mem_filter he),
      fun e he => hv.segment e (List.mem_of_mem_filter he)⟩
  ext e
  rw [Option.filter_eq_some_iff, find_eq_some hkept, find_eq_some hv, List.mem_filter]
  tauto

/-- The entries that the removal of `o` keeps. -/
def kept (o : Entry) (n p : Bytes) (e : Entry) : Bool :=
  decide (¬ ((e.name = n ∧ e.path = p) ∨ (o.is_directory = true ∧ Covers (joinPath p n) e.path)))

omit ht hv in
theorem apply_remove {n p : Bytes} {o : Entry} (h : v.find n p = some o) :
    v.apply (.remove n p) = v.filter (kept o n p) := by
  simp only [PrivateStore.apply, h]
  refine List.filter_congr (fun e _ => ?_)
  unfold kept
  rw [prefix_pattern_eq]
  simp only [like_percent_iff]

omit hv in
/-- A node below another one says that this is a directory. -/
theorem directory_of_below {o : Entry} {d c : List Name} {m k : Name}
    (ho : v.find m.val (path d) = some o) (hin : d ++ [m] <+: c) {e : Entry}
    (he : v.find k.val (path c) = some e) : o.is_directory = true := by
  obtain ⟨rest, rfl⟩ := hin
  have hnode : t.node (d ++ [m] ++ (rest ++ [k])) = some (kind e) := by
    rw [← List.append_assoc, ← ht, nodeOf_snoc, he, Option.map_some]
  have hdir := t.directory_above (by simp) hnode
  rw [← ht, nodeOf_snoc, ho, Option.map_some, kind] at hdir
  cases hd : o.is_directory with
  | true => rfl
  | false => simp [hd] at hdir

/-- A removal keeps an entry where the tree keeps its node, if and only if it is precise there. -/
theorem kept_iff {o e : Entry} {d c : List Name} {m k : Name} (ho : v.find m.val (path d) = some o)
    (he : v.find k.val (path c) = some e) :
    (kept o m.val (path d) e = true ↔ ¬ d ++ [m] <+: c ++ [k]) ↔
      (o.is_directory = true → ¬ (e.name = m.val ∧ e.path = path d) →
        Apt (joinPath (path d) m.val) e.path) := by
  obtain ⟨-, hk, hc⟩ := (find_eq_some hv).mp he
  have hbelow : Under (joinPath (path d) m.val) (path c) → o.is_directory = true :=
    fun h => directory_of_below ht ho ((under_join_iff m).mp h) he
  unfold kept
  rw [decide_eq_true_eq, not_iff_not, List.prefix_concat_iff, ← under_join_iff, apt_iff, hk, hc,
    eq_comm (a := d ++ [m]), snoc_eq_snoc_iff]
  by_cases hself : k.val = m.val ∧ path c = path d
  · simp only [hself, and_self, true_or, not_true_eq_false, false_imp_iff, implies_true]
  · by_cases hdir : o.is_directory = true
    · simp only [hself, false_or, hdir, true_and, true_imp_iff, not_false_eq_true]
    · simp [hself, hdir, mt hbelow hdir]

/-- The tree shows a removal if and only if the removal is precise. -/
theorem shows_remove_iff (n p : Bytes) :
    Shows (v.apply (.remove n p)) (perform t (.remove n p)) ↔ Precise v (.remove n p) := by
  have hat := find_map_kind hv ht n p
  cases ho : v.find n p with
  | none =>
    have hstore : v.apply (.remove n p) = v := by simp only [PrivateStore.apply, ho]
    have htree : perform t (.remove n p) = t := by
      rw [ho, Option.map_none] at hat
      unfold at_ at hat
      simp only [perform]
      cases hplace : place n p with
      | none => rfl
      | some x =>
        rw [hplace] at hat
        exact t.erase_of_none x.1 x.2 hat.symm
    rw [hstore, htree]
    exact iff_of_true ht (fun o h => absurd (ho.symm.trans h) (by simp))
  | some o =>
    obtain ⟨hmem, hname, hpath⟩ := (find_eq_some hv).mp ho
    obtain ⟨d, m, rfl, rfl, hplace⟩ :=
      exists_place (hpath ▸ hv.canonical o hmem) (hname ▸ hv.segment o hmem)
    rw [apply_remove ho]
    simp only [perform, hplace, Option.elim_some]
    have hfilter := find_filter hv (kept o m.val (path d))
    -- At the place of an entry, the two agree where they keep it or not together.
    have hnode : ∀ c k e, v.find k.val (path c) = some e →
        (nodeOf (v.filter (kept o m.val (path d))) (c ++ [k]) = (t.erase d m).node (c ++ [k]) ↔
          (kept o m.val (path d) e = true ↔ ¬ d ++ [m] <+: c ++ [k])) := by
      intro c k e he
      rw [nodeOf_snoc, hfilter, he, FileTree.node_erase, ← ht, nodeOf_snoc, he, Option.filter_some]
      by_cases hpre : d ++ [m] <+: c ++ [k]
      · simp [hpre]
      · simp [hpre]
    constructor
    · intro h o' ho' hdir e he hkey
      obtain rfl : o = o' := Option.some.inj (ho.symm.trans ho')
      obtain ⟨c, k, hc, hk, -⟩ := exists_place (hv.canonical e he) (hv.segment e he)
      have hfound : v.find k.val (path c) = some e :=
        (find_eq_some hv).mpr ⟨he, hk.symm, hc.symm⟩
      exact (kept_iff ht hv ho hfound).mp ((hnode c k e hfound).mp (h (c ++ [k]))) hdir hkey
    · intro h q
      cases q using List.reverseRecOn with
      | nil => rw [nodeOf_nil, FileTree.root]
      | append_singleton c k =>
        cases he : v.find k.val (path c) with
        | none => rw [nodeOf_snoc, hfilter, FileTree.node_erase, ← ht, nodeOf_snoc, he]; simp
        | some e =>
          have hmem := ((find_eq_some hv).mp he).1
          exact (hnode c k e he).mpr ((kept_iff ht hv ho he).mpr (fun hdir => h o ho hdir e hmem))

/-! ## What a call answers -/

omit ht hv in
theorem looks_toSeen (e : Entry) : Looks e.name e.path (kind e) (toSeen e) where
  found := rfl
  name := rfl
  path := rfl
  kind := by
    unfold kind toSeen
    cases e.is_directory <;> simp
  size := by
    intro size h
    unfold kind at h
    cases hd : e.is_directory with
    | true => simp [hd] at h
    | false =>
      have hsize : e.size = size := by simpa [hd] using h
      exact (c_str_to_string e.size).trans (congrArg to_string hsize)

theorem tells_lookup (n p : Bytes) : Tells t (.lookup n p) (v.answer (.lookup n p)) := by
  refine ⟨_, rfl, ?_⟩
  rw [← find_map_kind hv ht]
  cases hf : v.find n p with
  | none => exact Or.inl ⟨rfl, rfl⟩
  | some e =>
    obtain ⟨-, rfl, rfl⟩ := (find_eq_some hv).mp hf
    exact Or.inr ⟨kind e, rfl, looks_toSeen e⟩

/-- A listing has each name of the directory once, and what is there. -/
theorem tells_list (p : Bytes) : Tells t (.list p) (v.answer (.list p)) := by
  let es := v.filter (fun e => decide (e.path = p))
  have hmem : ∀ e, e ∈ es ↔ e ∈ v ∧ e.path = p := by simp [es]
  have hsegment : ∀ e ∈ es, Segment e.name := fun e he => hv.segment e ((hmem e).mp he).1
  let names : List Name := es.attach.map (fun e => ⟨e.1.name, hsegment e.1 e.2⟩)
  have hnames : names.map Subtype.val = es.map Entry.name := by
    simp only [names, List.map_map]
    exact (List.map_map (f := Subtype.val) (g := Entry.name)).symm.trans
      (congrArg (List.map Entry.name) es.attach_map_subtype_val)
  refine ⟨es.map toSeen, names, rfl, ?_, ?_, ?_⟩
  · have hpairs : (es.map Entry.name).map (fun n => (n, p)) =
        es.map (fun e => (e.name, e.path)) := by
      rw [List.map_map]
      exact List.map_congr_left (fun e he => congrArg (Prod.mk e.name) ((hmem e).mp he).2.symm)
    have hdistinct : (es.map (fun e => (e.name, e.path))).Nodup :=
      hv.distinct.sublist (List.filter_sublist.map _)
    rw [← hpairs, ← hnames] at hdistinct
    exact (hdistinct.of_map _).of_map _
  · intro m
    rw [← List.mem_map_of_injective Subtype.val_injective, hnames, List.mem_map]
    constructor
    · rintro ⟨e, he, hname⟩
      obtain ⟨hv', hp⟩ := (hmem e).mp he
      obtain ⟨d, hd⟩ := exists_path (hv.canonical e hv')
      refine ⟨d, directoryOf_eq_some_iff.mpr (hd.trans hp), ?_⟩
      have hfound : v.find m.val (path d) = some e := (find_eq_some hv).mpr ⟨hv', hname, hd.symm⟩
      change t.node (d ++ [m]) ≠ none
      rw [← ht, nodeOf_snoc, hfound]
      simp
    · rintro ⟨d, hd, hnode⟩
      obtain rfl := directoryOf_eq_some_iff.mp hd
      change t.node (d ++ [m]) ≠ none at hnode
      rw [← ht, nodeOf_snoc, ne_eq, Option.map_eq_none_iff] at hnode
      obtain ⟨e, he⟩ := Option.ne_none_iff_exists'.mp hnode
      obtain ⟨hv', hname, hpath⟩ := (find_eq_some hv).mp he
      exact ⟨e, (hmem e).mpr ⟨hv', hpath⟩, hname⟩
  · have hes : es.map toSeen = es.attach.map (fun e => toSeen e.1) := by
      conv_lhs => rw [← es.attach_map_subtype_val, List.map_map]
      rfl
    rw [hes, List.forall₂_map_left_iff, List.forall₂_map_right_iff, List.forall₂_same]
    intro e _
    obtain ⟨hv', hp⟩ := (hmem e.1).mp e.2
    refine ⟨kind e.1, ?_, hp ▸ looks_toSeen e.1⟩
    rw [← find_map_kind hv ht, (find_eq_some hv).mpr ⟨hv', rfl, hp⟩, Option.map_some]

/-- The tree tells what a call answers. -/
theorem tells_answer {c : Call} (hc : Placed c) : Tells t c (v.answer c) := by
  cases c with
  | create n p size dir =>
    obtain ⟨d, m, -, -, hplace⟩ := exists_place hc.1 hc.2
    refine ⟨_, rfl, ?_⟩
    rw [decide_eq_true_eq, allows_iff ht hplace]
    constructor
    · exact fun h => ⟨d, m, hplace, h⟩
    · rintro ⟨d', m', hplace', h⟩
      cases hplace.symm.trans hplace'
      exact h
  | update n p size => exact ⟨_, rfl, isSome_find_iff hv ht n p⟩
  | remove n p => exact ⟨_, rfl, isSome_find_iff hv ht n p⟩
  | lookup n p => exact tells_lookup ht hv n p
  | list p => exact tells_list ht hv p

end

/-! ## The law -/

/-- The tree shows a call if and only if the call is precise. -/
theorem shows_apply_iff {v : PrivateStore} {t : FileTree Name Int} (ht : Shows v t)
    (hv : Rooted v) {c : Call} (hc : Placed c) :
    Shows (v.apply c) (perform t c) ↔ Precise v c := by
  cases c with
  | create n p size dir => exact iff_of_true (shows_create ht hc.1 hc.2 size dir) trivial
  | update n p size => exact iff_of_true (shows_update ht hv n p size) trivial
  | remove n p => exact shows_remove_iff ht hv n p
  | lookup n p => exact iff_of_true ht trivial
  | list p => exact iff_of_true ht trivial

/-- What a call inserts is at a well-formed place, and its id is new. -/
structure Sited (st : Store) (o : Op) : Prop where
  fresh : Fresh st o
  place : Inserts st.table o → WellFormed o

/-- A create at another place is refused, by the table and by the tree. -/
theorem refused_of_not_wellFormed {st : Store} {o : Op} (hf : Formed st.table) (hs : Sited st o)
    (h : ¬ WellFormed o) : ∃ uuid now u n p size dir, o = .create_object uuid now u n p size dir ∧
      ¬ Creatable st.table u n p ∧ place n p = none := by
  cases o with
  | create_object uuid now u n p size dir =>
    have hplace : place n p = none := by
      cases hp : place n p with
      | none => rfl
      | some x =>
        obtain ⟨rfl, rfl⟩ := place_eq_some_iff.mp hp
        exact absurd ⟨canonical_path x.1, x.2.2⟩ h
    refine ⟨uuid, now, u, n, p, size, dir, rfl, fun hc => h (hs.place ⟨hc, ?_⟩), hplace⟩
    -- A row in the way has the same place, and the places of the rows are well-formed.
    rintro ⟨r, hr, hid | ⟨rfl, rfl⟩⟩
    · exact hs.fresh r hr hid
    · exact h ⟨hf.canonical r hr, hf.segment r hr⟩
  | _ => exact absurd trivial h

open Classical in
/-- The store after a call, next to the tree of `u`, which only the calls of `u` change. -/
noncomputable def filed (u : Bytes) (s : Store × FileTree Name Int) (o : Op) :
    Option (Store × FileTree Name Int) :=
  if Sited s.1 o then
    some (histories.apply s.1 o, if o.user = u then perform s.2 (call o) else s.2)
  else none

/-- The tree tells the user what its call answers, and shows what the user has then. -/
def Follows (u : Bytes) (s : Store × FileTree Name Int) (o : Op)
    (s' : Store × FileTree Name Int) : Prop :=
  (o.user = u → Tells s.2 (call o) (outcome s.1 o)) ∧ Shows (view u s'.1.table) s'.2

/-- A call of the user is no clash, and precise. -/
def Keeps (u : Bytes) (s : Store × FileTree Name Int) (o : Op)
    (_ : Store × FileTree Name Int) : Prop :=
  o.user = u → ¬ Clash u s.1 o ∧ Precise (view u s.1.table) (call o)

/-- A create that clashes makes a node in the tree, and nothing in the table. -/
theorem not_shows_of_clash {st : Store} {t : FileTree Name Int} {u : Bytes} {o : Op}
    (hg : Generated st.table) (ht : Shows (view u st.table) t) (hf : Fresh st o)
    (ho : WellFormed o) (hc : Clash u st o) :
    ¬ Shows (view u (histories.apply st o).table) (perform t (call o)) := by
  cases o with
  | create_object uuid now v n p size dir =>
    obtain ⟨rfl, hcreate, hother⟩ := hc
    obtain ⟨d, m, rfl, rfl, hplace⟩ := exists_place ho.1 ho.2
    have hallows := (creatable_iff hg v m.val (path d)).mp hcreate
    have hfree := (allows_iff ht hplace).mp hallows
    have hview : view v (histories.apply st
        (.create_object uuid now v m.val (path d) size dir)).table = view v st.table := by
      simp only [histories.apply]
      rw [view_create hg hf, if_neg (fun h => h.2 hother)]
    intro h
    have hnode := h (d ++ [m])
    simp only [call, perform, hplace, Option.elim_some] at hnode
    rw [hview, nodeOf_snoc, hallows.2, FileTree.node_insert _ _ _ hfree, if_pos rfl] at hnode
    cases hnode
  | _ => exact absurd hc id

theorem formed_of_sited {st : Store} {o : Op} (hf : Formed st.table) (hs : Sited st o) :
    Formed (histories.apply st o).table := by
  by_cases hwf : WellFormed o
  · exact formed_apply hf hwf
  · obtain ⟨uuid, now, u, n, p, size, dir, rfl, hno, -⟩ := refused_of_not_wellFormed hf hs hwf
    simp only [histories.apply]
    rw [create_object_of_not hno]
    exact hf

/-- The tree tells the user what its call answers. -/
theorem tells_outcome {st : Store} {o : Op} {t : FileTree Name Int} (hf : Formed st.table)
    (ht : Shows (view o.user st.table) t) (hs : Sited st o) : Tells t (call o) (outcome st o) := by
  by_cases hwf : WellFormed o
  · rw [outcome_own hf.generated]
    exact tells_answer ht (rooted_view hf o.user) (placed_call hwf)
  · obtain ⟨uuid, now, u, n, p, size, dir, rfl, hno, hplace⟩ :=
      refused_of_not_wellFormed hf hs hwf
    refine ⟨false, ?_, ?_⟩
    · simp only [outcome]
      rw [create_object_of_not hno]
      rfl
    · simp [hplace]

/-- A call of the user goes with the tree if and only if it is no clash, and precise. -/
theorem shows_own_iff {st : Store} {o : Op} {t : FileTree Name Int} (hf : Formed st.table)
    (ht : Shows (view o.user st.table) t) (hs : Sited st o) :
    Shows (view o.user (histories.apply st o).table) (perform t (call o)) ↔
      ¬ Clash o.user st o ∧ Precise (view o.user st.table) (call o) := by
  by_cases hwf : WellFormed o
  · by_cases hc : Clash o.user st o
    · exact iff_of_false (not_shows_of_clash hf.generated ht hs.fresh hwf hc) (fun h => h.1 hc)
    · rw [(view_own hf.generated hs.fresh).mpr hc,
        shows_apply_iff ht (rooted_view hf o.user) (placed_call hwf)]
      exact (and_iff_right hc).symm
  · obtain ⟨uuid, now, u, n, p, size, dir, rfl, hno, hplace⟩ :=
      refused_of_not_wellFormed hf hs hwf
    refine iff_of_true ?_ ⟨fun hc => hno hc.2.1, trivial⟩
    simp only [histories.apply, call, perform, hplace, Option.elim_none]
    rw [create_object_of_not hno]
    exact ht

theorem follows_iff {u : Bytes} {s s' : Store × FileTree Name Int} {o : Op} (hf : Formed s.1.table)
    (ht : Shows (view u s.1.table) s.2) (h : filed u s o = some s') :
    Formed s'.1.table ∧ (Follows u s o s' ↔ Keeps u s o s') := by
  simp only [filed, Option.ite_none_right_eq_some, Option.some.injEq] at h
  obtain ⟨hs, rfl⟩ := h
  refine ⟨formed_of_sited hf hs, ?_⟩
  unfold Follows Keeps
  by_cases hu : o.user = u
  · subst hu
    simp only [if_true, true_imp_iff, tells_outcome hf ht hs, true_and]
    exact shows_own_iff hf ht hs
  · simp only [hu, if_false, false_imp_iff, true_and, iff_true]
    rw [view_other hf.generated hu]
    exact ht

theorem shows_empty (u : Bytes) : Shows (view u Store.empty.table) FileTree.empty := by
  intro p
  cases p using List.reverseRecOn with
  | nil => rfl
  | append_singleton d m =>
    rw [nodeOf_snoc]
    exact (if_neg (by simp)).symm

/-- In every history of the store from an empty table, where what a call inserts has a new id and a
well-formed place, a user has a tree of names: a create makes a node, a size update changes a file,
a removal takes a node with all below it, the calls of the others change nothing, and each call is
answered by the tree. That is so if and only if no create of the user clashes and every removal of
the user is precise. -/
theorem a_user_has_a_file_tree_iff (u : Bytes) (ops : List Op) :
    runs.Along (filed u) (Follows u) (Store.empty, FileTree.empty) ops ↔
      runs.Along (filed u) (Keeps u) (Store.empty, FileTree.empty) ops := by
  refine runs.along_iff_of_invariant (J := fun s => Formed s.1.table ∧ Shows (view u s.1.table) s.2)
    ?_ ?_ ⟨formed_empty, shows_empty u⟩
  · exact fun s o s' hs h => (follows_iff hs.1 hs.2 h).2
  · intro s o s' hs h hok
    obtain ⟨hf, hiff⟩ := follows_iff hs.1 hs.2 h
    exact ⟨hf, (hiff.mpr hok).2⟩

end asio_ftp.file_system
