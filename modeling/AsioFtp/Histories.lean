-- Histories of the store: any sequence of calls of the functions of `fs_objects`, by any
-- users, and what each call gives its caller.
import AsioFtp.FsObjects
import AsioFtp.Lib.Runs

namespace asio_ftp.histories

open helpers fs_objects

/-- One call, with the id and the time that it gets from outside. -/
inductive Op
  | create_object (uuid : Uuid) (now user_id object_name object_path : Bytes) (object_size : Int)
      (is_directory : Bool)
  | update_object_size (now user_id object_name object_path : Bytes) (object_size : Int)
  | remove_fs_object (user_id object_name object_path : Bytes)
  | get_object (user_id object_name object_path : Bytes)
  | get_objects_by_path (user_id object_path : Bytes)

/-- The user of a call. -/
def Op.user : Op → Bytes
  | .create_object _ _ u .. => u
  | .update_object_size _ u .. => u
  | .remove_fs_object u .. => u
  | .get_object u .. => u
  | .get_objects_by_path u .. => u

/-- An object up to its id and its time: whether it is there, its name, path, size and kind. -/
structure Seen where
  found : Bool
  name : Bytes
  path : Bytes
  size : Bytes
  is_directory : Bool
  deriving DecidableEq

def seen (o : fs_object) : Seen :=
  { found := decide (o.id ≠ []), name := o.name, path := o.path, size := o.size,
    is_directory := o.is_directory }

/-- What a call gives its caller, up to ids and times. -/
inductive Outcome
  | done (ok : Bool)
  | object (o : Seen)
  | objects (os : List Seen)
  deriving DecidableEq

/-- The store after a call. -/
def apply (st : Store) : Op → Store
  | .create_object uuid now u n p size d => (create_object st uuid now u n p size d).1
  | .update_object_size now u n p size => (update_object_size st now u n p size).1
  | .remove_fs_object u n p => (remove_fs_object st u n p).1
  | .get_object _ _ _ => st
  | .get_objects_by_path _ _ => st

/-- The store after a call, if there is one. -/
def applied (st : Store) (o : Option Op) : Store := o.elim st (apply st)

def outcome (st : Store) : Op → Outcome
  | .create_object uuid now u n p size d =>
    .done (decide ((create_object st uuid now u n p size d).2 ≠ []))
  | .update_object_size now u n p size =>
    .done (decide ((update_object_size st now u n p size).2 ≠ []))
  | .remove_fs_object u n p => .done (remove_fs_object st u n p).2
  | .get_object u n p => .object (seen (fs_objects.get_object st.table u n p))
  | .get_objects_by_path u p => .objects ((fs_objects.get_objects_by_path st.table u p).map seen)

/-- The store after a history. -/
def after (st : Store) (ops : List Op) : Store := ops.foldl apply st

theorem after_append (st : Store) (a b : List Op) : after st (a ++ b) = after (after st a) b :=
  List.foldl_append ..

theorem after_toList (st : Store) (o : Option Op) : after st o.toList = applied st o := by
  cases o <;> rfl

/-- A history as a run: every call can be made in every store. -/
def step (st : Store) (o : Op) : Option Store := some (apply st o)

/-- What a call does to the table depends on the table only, and not on the blobs. -/
theorem apply_table_congr {a b : Store} (h : a.table = b.table) (o : Op) :
    (apply a o).table = (apply b o).table := by
  cases o with
  | create_object uuid now u n p size d =>
    simp only [apply]
    by_cases hc : Creatable a.table u n p
    · rw [create_object_of hc, create_object_of (h ▸ hc)]
      exact congrArg (Table.insert · _) h
    · rw [create_object_of_not hc, create_object_of_not (h ▸ hc)]
      exact h
  | update_object_size now u n p size =>
    simp only [apply, update_object_size_table, h]
  | remove_fs_object u n p =>
    apply Table.eq_of_rows
    simp only [apply, remove_fs_object_rows, h]
  | get_object u n p => exact h
  | get_objects_by_path u p => exact h

theorem after_table_congr {a b : Store} (h : a.table = b.table) (ops : List Op) :
    (after a ops).table = (after b ops).table := by
  induction ops generalizing a b with
  | nil => exact h
  | cons o ops ih => exact ih (apply_table_congr h o)

/-- A create inserts its row: its checks pass, and no row of any user conflicts. -/
def Inserts (t : Table) : Op → Prop
  | .create_object uuid now u n p size d =>
    Creatable t u n p ∧ ¬ t.Conflicts (newRow uuid now u n p size d)
  | _ => False

instance (t : Table) : (o : Op) → Decidable (Inserts t o)
  | .create_object .. => inferInstanceAs (Decidable (_ ∧ _))
  | .update_object_size .. => inferInstanceAs (Decidable False)
  | .remove_fs_object .. => inferInstanceAs (Decidable False)
  | .get_object .. => inferInstanceAs (Decidable False)
  | .get_objects_by_path .. => inferInstanceAs (Decidable False)

/-- What one call does to the rows: it adds the new row of a create, changes sizes and times,
or deletes the rows of a removal. -/
theorem mem_apply {st : Store} {o : Op} {x : Row} (h : x ∈ (apply st o).table.rows) :
    (∃ r ∈ st.table.rows, ∃ s m, x = { r with size := s, modified_time := m }) ∨
    (∃ uuid now u n p size d, o = .create_object uuid now u n p size d ∧
      x = newRow uuid now u n p size d ∧ Inserts st.table o) := by
  have hkeep : x ∈ st.table.rows →
      ∃ r ∈ st.table.rows, ∃ s m, x = { r with size := s, modified_time := m } :=
    fun hx => ⟨x, hx, x.size, x.modified_time, rfl⟩
  cases o with
  | create_object uuid now u n p size d =>
    simp only [apply] at h
    by_cases hc : Creatable st.table u n p
    · rw [create_object_of hc] at h
      rcases mem_insert.mp h with h | ⟨h, hno⟩
      · exact Or.inl (hkeep h)
      · exact Or.inr ⟨uuid, now, u, n, p, size, d, rfl, h, hc, hno⟩
    · rw [create_object_of_not hc] at h
      exact Or.inl (hkeep h)
  | update_object_size now u n p size => exact Or.inl (mem_update_object_size h)
  | remove_fs_object u n p => exact Or.inl (hkeep (mem_remove_fs_object.mp h).1)
  | get_object u n p => exact Or.inl (hkeep h)
  | get_objects_by_path u p => exact Or.inl (hkeep h)

theorem generated_apply {st : Store} (h : Generated st.table) (o : Op) :
    Generated (apply st o).table := by
  intro x hx
  rcases mem_apply hx with ⟨r, hr, s, m, rfl⟩ | ⟨uuid, now, u, n, p, size, d, -, rfl, -⟩
  · exact h r hr
  · exact ⟨uuid, rfl⟩

theorem generated_applied {st : Store} (h : Generated st.table) (o : Option Op) :
    Generated (applied st o).table := by
  cases o with
  | none => exact h
  | some o => exact generated_apply h o

theorem generated_empty : Generated Store.empty.table := by
  intro r hr
  cases hr

theorem generated_after {st : Store} (h : Generated st.table) (ops : List Op) :
    Generated (after st ops).table := by
  induction ops generalizing st with
  | nil => exact h
  | cons o ops ih => exact ih (generated_apply h o)

end asio_ftp.histories
