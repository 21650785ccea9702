namespace DemandPaging

/-- Values kept under small numbers, of which some may stand for nothing. -/
structure Slots (α : Type) where
  cells : List (Option α)

namespace Slots

variable {α : Type}

def empty : Slots α :=
  ⟨[]⟩

def get? (slots : Slots α) (i : Nat) : Option α :=
  slots.cells[i]?.join

def values (slots : Slots α) : List α :=
  slots.cells.filterMap id

def size (slots : Slots α) : Nat :=
  slots.cells.length

private def write (value : Option α) : Nat → List (Option α) → List (Option α)
  | 0, [] => [value]
  | 0, _ :: rest => value :: rest
  | i + 1, [] => none :: write value i []
  | i + 1, cell :: rest => cell :: write value i rest

def put (slots : Slots α) (i : Nat) (value : α) : Slots α :=
  ⟨write (some value) i slots.cells⟩

def erase (slots : Slots α) (i : Nat) : Slots α :=
  ⟨write none i slots.cells⟩

private theorem getElem?_write_self (value : Option α) (i : Nat) (cells : List (Option α)) :
    (write value i cells)[i]? = some value := by
  induction i generalizing cells with
  | zero => cases cells <;> rfl
  | succ i ih => cases cells <;> simp [write, ih]

private theorem join_getElem?_write_of_ne (value : Option α) {i j : Nat} (cells : List (Option α))
    (h : j ≠ i) : (write value i cells)[j]?.join = cells[j]?.join := by
  induction i generalizing cells j with
  | zero =>
      rcases j with - | j
      · exact absurd rfl h
      · cases cells <;> simp [write]
  | succ i ih =>
      rcases j with - | j
      · cases cells <;> simp [write]
      · have hj : j ≠ i := fun heq => h (congrArg Nat.succ heq)
        cases cells with
        | nil => simpa [write] using ih [] hj
        | cons cell rest => simpa [write] using ih rest hj

@[simp] theorem get?_empty (i : Nat) : (empty : Slots α).get? i = none := rfl

theorem get?_put (slots : Slots α) (i j : Nat) (value : α) :
    (slots.put i value).get? j = if j = i then some value else slots.get? j := by
  split
  · rename_i h
    rw [h, get?, put, getElem?_write_self]
    rfl
  · rename_i h
    exact join_getElem?_write_of_ne _ _ h

private theorem write_self {value : α} {i : Nat} {cells : List (Option α)}
    (h : cells[i]?.join = some value) : write (some value) i cells = cells := by
  induction cells generalizing i with
  | nil => simp at h
  | cons cell rest ih =>
      rcases i with - | i
      · obtain rfl : cell = some value := by simpa using h
        rfl
      · exact congrArg (cell :: ·) (ih (by simpa using h))

theorem put_self {slots : Slots α} {i : Nat} {value : α} (h : slots.get? i = some value) :
    slots.put i value = slots :=
  congrArg Slots.mk (write_self h)

private theorem write_write (value other : Option α) (i : Nat) (cells : List (Option α)) :
    write value i (write other i cells) = write value i cells := by
  induction i generalizing cells with
  | zero => cases cells <;> rfl
  | succ i ih => cases cells <;> simp [write, ih]

@[simp] theorem put_put (slots : Slots α) (i : Nat) (value other : α) :
    (slots.put i value).put i other = slots.put i other :=
  congrArg Slots.mk (write_write (some other) (some value) i slots.cells)

@[simp] theorem erase_put (slots : Slots α) (i : Nat) (value : α) :
    (slots.put i value).erase i = slots.erase i :=
  congrArg Slots.mk (write_write none (some value) i slots.cells)

theorem get?_erase (slots : Slots α) (i j : Nat) :
    (slots.erase i).get? j = if j = i then none else slots.get? j := by
  split
  · rename_i h
    rw [h, get?, erase, getElem?_write_self]
    rfl
  · rename_i h
    exact join_getElem?_write_of_ne _ _ h

@[simp] theorem values_empty : (empty : Slots α).values = [] := rfl

private theorem filterMap_write_some_perm (value : α) (i : Nat) (cells : List (Option α)) :
    ((write (some value) i cells).filterMap id).Perm
      (value :: (write none i cells).filterMap id) := by
  induction i generalizing cells with
  | zero => cases cells <;> exact List.Perm.refl _
  | succ i ih =>
      rcases cells with - | ⟨- | other, rest⟩
      · exact ih []
      · exact ih rest
      · exact ((ih rest).cons other).trans (List.Perm.swap value other _)

private theorem filterMap_perm_write_none (i : Nat) (cells : List (Option α)) :
    (cells.filterMap id).Perm (cells[i]?.join.toList ++ (write none i cells).filterMap id) := by
  induction i generalizing cells with
  | zero =>
      rcases cells with - | ⟨- | other, rest⟩ <;> exact List.Perm.refl _
  | succ i ih =>
      rcases cells with - | ⟨- | other, rest⟩
      · exact ih []
      · exact ih rest
      · exact ((ih rest).cons other).trans List.perm_middle.symm

theorem values_put_perm (slots : Slots α) (i : Nat) (value : α) :
    (slots.put i value).values.Perm (value :: (slots.erase i).values) :=
  filterMap_write_some_perm value i slots.cells

theorem values_perm_erase (slots : Slots α) (i : Nat) :
    slots.values.Perm ((slots.get? i).toList ++ (slots.erase i).values) :=
  filterMap_perm_write_none i slots.cells

end Slots

end DemandPaging
