/-!
# Table — entries by increasing key

A table is a list of keys and values, one value for each key, by increasing key.  So equal contents
make equal tables, and the order in which the entries came is not kept.  Each operation is told by
what it does to the look-up: `get?_insert`, `get?_erase`.
-/

namespace Stencil

/-- Values under keys. -/
abbrev Table (κ α : Type) := List (κ × α)

namespace Table

variable {κ α : Type} [DecidableEq κ]

/-- The value under a key. -/
def get? : Table κ α → κ → Option α
  | [], _ => none
  | (k, v) :: t, key => if k = key then some v else get? t key

/-- The table without a key. -/
def erase : Table κ α → κ → Table κ α
  | [], _ => []
  | (k, v) :: t, key => if k = key then erase t key else (k, v) :: erase t key

variable [LT κ] [DecidableLT κ]

/-- The table with a value under a key, in place of what was there. -/
def insert : Table κ α → κ → α → Table κ α
  | [], key, value => [(key, value)]
  | (k, v) :: t, key, value =>
    if k = key then (key, value) :: t
    else if key < k then (key, value) :: (k, v) :: t
    else (k, v) :: insert t key value

omit [LT κ] [DecidableLT κ] in
@[simp] theorem get?_nil (key : κ) : get? ([] : Table κ α) key = none := rfl

omit [LT κ] [DecidableLT κ] in
theorem get?_cons (k key : κ) (v : α) (t : Table κ α) :
    get? ((k, v) :: t) key = if k = key then some v else get? t key := rfl

/-- **Inserting changes one key.** -/
theorem get?_insert (t : Table κ α) (key other : κ) (value : α) :
    (t.insert key value).get? other = if key = other then some value else t.get? other := by
  induction t with
  | nil => rfl
  | cons e t ih =>
    obtain ⟨k, v⟩ := e
    unfold insert
    split
    · simp only [get?_cons]; split <;> simp_all
    · split
      · simp only [get?_cons]
      · simp only [get?_cons, ih]; split <;> split <;> simp_all

omit [LT κ] [DecidableLT κ] in
/-- **Erasing takes one key away.** -/
theorem get?_erase (t : Table κ α) (key other : κ) :
    (t.erase key).get? other = if key = other then none else t.get? other := by
  induction t with
  | nil => simp [erase]
  | cons e t ih =>
    obtain ⟨k, v⟩ := e
    unfold erase
    split
    · rw [ih, get?_cons]; split <;> simp_all
    · rw [get?_cons, ih, get?_cons]; split <;> split <;> simp_all

end Table

end Stencil
