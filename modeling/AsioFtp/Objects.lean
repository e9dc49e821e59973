-- The laws of the object functions: what the removal of a directory takes with it, and when the
-- answer of a create is true. A removal reads the name of the directory as a LIKE pattern, and a
-- create does not see a row of another user.
import AsioFtp.Tree

namespace asio_ftp.objects

open helpers paths sqlite_wrapper fs_objects histories tree

/-! ## The removal of a directory -/

/-- `q` is the directory `p` or lies below it. -/
def Under (p q : Bytes) : Prop := q = p ∨ p ++ [slash] <+: q

instance (p q : Bytes) : Decidable (Under p q) := inferInstanceAs (Decidable (_ ∨ _))

/-- A pattern that is not too long misses no path below the directory. -/
theorem Under.covers {p q : Bytes} (h : Under p q) (hlen : p.length < LIKE_PATTERN_LENGTH) :
    Covers p q := by
  rcases h with rfl | ⟨rest, rfl⟩
  · exact covers_self hlen
  · rw [List.append_assoc]
    refine covers_append hlen (fun c hc => ?_)
    obtain rfl : slash = c := by simpa using hc
    rfl

/-- The pattern of the directory `p` does to the path `q` what it is for: it covers no path outside
of the directory, and it is not too long if the path is in the directory. -/
def Apt (p q : Bytes) : Prop :=
  (Covers p q → Under p q) ∧ (Under p q → p.length < LIKE_PATTERN_LENGTH)

instance (p q : Bytes) : Decidable (Apt p q) := inferInstanceAs (Decidable (_ ∧ _))

theorem apt_iff {p q : Bytes} : Apt p q ↔ (Covers p q ↔ Under p q) :=
  ⟨fun h => ⟨h.1, fun hin => hin.covers (h.2 hin)⟩, fun h => ⟨h.mp, fun hin => (h.mpr hin).1⟩⟩

/-- `x` is the directory `d`, or an object of its user at any depth in it. -/
def InSubtree (d x : Row) : Prop :=
  x = d ∨ (x.user_id = d.user_id ∧ Under (address d) x.path)

instance (d x : Row) : Decidable (InSubtree d x) := inferInstanceAs (Decidable (_ ∨ _))

theorem filter_eq_filter_iff {ρ : Type} {rows : List ρ} {f g : ρ → Bool} :
    rows.filter f = rows.filter g ↔ ∀ x ∈ rows, f x = g x := by
  refine ⟨fun h x hx => ?_, List.filter_congr⟩
  have hmem : x ∈ rows.filter f ↔ x ∈ rows.filter g := by rw [h]
  rw [List.mem_filter, List.mem_filter, and_iff_right hx, and_iff_right hx] at hmem
  exact Bool.eq_iff_iff.mpr hmem

/-- In every tree, the removal of a directory deletes the directory and what its user has in it
and no other row, if and only if the pattern of the directory covers no other object of the user
outside of it, and is not too long if there are some in it. -/
theorem a_removal_takes_the_subtree_iff (st : Store) (d : Row) (ht : Tree st.table)
    (hd : d ∈ st.table.rows) (hdir : d.is_directory = true) :
    (remove_fs_object st d.user_id d.name d.path).1.table.rows =
        st.table.rows.filter (fun x => decide (¬ InSubtree d x)) ↔
      ∀ x ∈ st.table.rows, x.user_id = d.user_id → x ≠ d → Apt (address d) x.path := by
  have hremoves := fun x hx => removes_directory_iff (x := x) ht.generated hd hdir hx
  rw [remove_fs_object_rows, filter_eq_filter_iff]
  refine forall₂_congr fun x hx => ?_
  rw [decide_eq_decide, not_iff_not, hremoves x hx, apt_iff]
  -- The two sets agree on the directory and on the rows of other users.
  by_cases hne : x = d
  · simp [InSubtree, hne]
  · by_cases hu : x.user_id = d.user_id
    · simp [InSubtree, hne, hu]
    · simp [InSubtree, hne, hu]

/-- A user with the directories "a" and "ab" and a file in each. -/
def siblings : Store :=
  after Store.empty
    [.create_object (.ofRand 1) [] (lit "u") (lit "a") (lit "/") 0 true,
      .create_object (.ofRand 2) [] (lit "u") (lit "ab") (lit "/") 0 true,
      .create_object (.ofRand 3) [] (lit "u") (lit "f") (lit "/a") 0 false,
      .create_object (.ofRand 4) [] (lit "u") (lit "f") (lit "/ab") 0 false]

theorem tree_siblings : Tree siblings.table := by
  refine tree_after tree_empty (fun o ho => ?_)
  simp only [List.mem_cons, List.not_mem_nil, or_false] at ho
  rcases ho with rfl | rfl | rfl | rfl <;> exact ⟨by decide, fun _ => trivial⟩

/-- The directory `name` of that user in the root. -/
def directoryOf (rand : Nat) (name : Bytes) : Row :=
  newRow (.ofRand rand) [] (lit "u") name (lit "/") 0 true

/-- The law at the directory "ab", which no other name begins with. -/
theorem a_removal_takes_the_subtree_of_ab :
    (remove_fs_object siblings (lit "u") (lit "ab") (lit "/")).1.table.rows =
      siblings.table.rows.filter (fun x => decide (¬ InSubtree (directoryOf 2 (lit "ab")) x)) :=
  (a_removal_takes_the_subtree_iff siblings (directoryOf 2 (lit "ab")) tree_siblings (by decide)
    rfl).mpr (by decide)

/-- The removal of "a" takes the file in "ab" too. -/
theorem the_removal_of_a_takes_a_file_of_ab :
    Tree siblings.table ∧ directoryOf 1 (lit "a") ∈ siblings.table.rows ∧
      ¬ (remove_fs_object siblings (lit "u") (lit "a") (lit "/")).1.table.rows =
        siblings.table.rows.filter (fun x => decide (¬ InSubtree (directoryOf 1 (lit "a")) x)) :=
  ⟨tree_siblings, by decide, by decide⟩

/-- A name is a pattern: the one with a wildcard covers the one without, and case is folded. Two
bytes that are no characters are one, and a name with a NUL covers what its front is. -/
example : Covers (lit "/a_") (lit "/ab") ∧ Covers (lit "/%") (lit "/x/y") ∧
    Covers (lit "/a") (lit "/A") ∧ ¬ Covers (lit "/a") (lit "/b") ∧
    Covers [slash, 0xC0] [slash, 0xC1] ∧ Covers [slash, 97, 0, 98] (lit "/a") ∧
    ¬ Covers [slash, 97, 0, 98] (lit "/a/s") := by decide

/-! ## The answer of a create -/

/-- What a create tells with its answer, the id of the new object or nothing, is what its store
has then. -/
structure Truthful (before : Store) (answer : Store × Bytes) (user_id name path : Bytes)
    (size : Int) (is_directory : Bool) : Prop where
  id : answer.2 ≠ [] → (get_object answer.1.table user_id name path).id = answer.2
  size : answer.2 ≠ [] → (get_object answer.1.table user_id name path).size = to_string size
  kind : answer.2 ≠ [] →
    (get_object answer.1.table user_id name path).is_directory = is_directory
  others : answer.2 ≠ [] →
    ∃ r, r.object_id = answer.2 ∧ answer.1.table.rows = before.table.rows ++ [r]
  refused : answer.2 = [] → answer.1.table = before.table

theorem insert_rows {t : Table} {r : Row} (h : ¬ t.Conflicts r) :
    (t.insert r).rows = t.rows ++ [r] := by
  rw [Table.insert, dif_neg h]

/-- A row that is inserted reads back, unless a row stands in its way. -/
theorem get_object_insert {t : Table} {r : Row} (h : ¬ t.Conflicts r) :
    get_object (t.insert r) r.user_id r.name r.path = r.toObject :=
  get_object_of_mem (mem_insert.mpr (Or.inr ⟨rfl, h⟩))

/-- For every store, a create tells the truth if and only if its checks fail, or no row of any
user has the generated id or the name and the path. -/
theorem a_create_is_truthful_iff (st : Store) (uuid : Uuid) (now u n p : Bytes) (size : Int)
    (is_directory : Bool) :
    Truthful st (create_object st uuid now u n p size is_directory) u n p size is_directory ↔
      (Creatable st.table u n p → ∀ x ∈ st.table.rows,
        x.object_id ≠ uuid.val ∧ ¬ (x.name = n ∧ x.path = p)) := by
  by_cases hc : Creatable st.table u n p
  · rw [create_object_of hc]
    have hid : uuid.val ≠ [] := uuid.ne_nil
    constructor
    · intro h _ x hx
      by_contra hbad
      -- A row in the way: the table stays, and the lookup finds nothing as it did before.
      have hconf : st.table.Conflicts (newRow uuid now u n p size is_directory) := by
        refine ⟨x, hx, ?_⟩
        rw [not_and_or, not_not, not_not] at hbad
        exact hbad
      have hfound := h.id hid
      simp only [Table.insert, dif_pos hconf, hc.2] at hfound
      exact hid hfound.symm
    · intro h
      have hconf : ¬ st.table.Conflicts (newRow uuid now u n p size is_directory) := by
        rintro ⟨x, hx, hid | hkey⟩
        · exact (h hc x hx).1 hid
        · exact (h hc x hx).2 hkey
      have hget : get_object (st.table.insert (newRow uuid now u n p size is_directory)) u n p =
          (newRow uuid now u n p size is_directory).toObject := get_object_insert hconf
      refine ⟨fun _ => ?_, fun _ => ?_, fun _ => ?_, fun _ => ⟨_, rfl, insert_rows hconf⟩,
        fun h => absurd h hid⟩
      · rw [hget]
        exact uuid.c_str_val
      · rw [hget]
        exact c_str_to_string size
      · rw [hget]
        rfl
  · rw [create_object_of_not hc]
    refine iff_of_true ?_ (fun h => absurd h hc)
    exact ⟨fun h => absurd rfl h, fun h => absurd rfl h, fun h => absurd rfl h,
      fun h => absurd rfl h, fun _ => rfl⟩

/-- A store with the directory "a" of the user "u". -/
def oneDirectory : Store :=
  after Store.empty [.create_object (.ofRand 1) [] (lit "u") (lit "a") (lit "/") 0 true]

/-- The create of "/a" by another user gives an id, and no such object is there. -/
theorem a_create_of_a_taken_name_is_not_truthful :
    ¬ Truthful oneDirectory
      (create_object oneDirectory (.ofRand 2) [] (lit "v") (lit "a") (lit "/") 5 false)
      (lit "v") (lit "a") (lit "/") 5 false :=
  fun h => absurd (h.id (by decide)) (by decide)

end asio_ftp.objects
