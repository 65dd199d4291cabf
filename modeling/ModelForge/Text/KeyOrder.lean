/-
`KeyOrder.lean` -- associations in ascending order of their keys.

Two parts of a model are listed by key and not as they were written: the fields of an object and
the decorators of a declaration. Both are built by `KeyedList.insert`, which replaces the value of
a key that is there already, so a list that is inserted from left to right keeps the last value of
each key.
-/

set_option autoImplicit false

namespace ModelForge

/-- Values with string keys. -/
abbrev KeyedList (α : Type) := List (String × α)

namespace KeyedList

variable {α : Type}

/-- Puts a value in its place by key, replacing the value of a key that is there already. -/
def insert (key : String) (value : α) : KeyedList α → KeyedList α
  | [] => [(key, value)]
  | (key', value') :: rest =>
      if key < key' then (key, value) :: (key', value') :: rest
      else if key = key' then (key, value) :: rest
      else (key', value') :: insert key value rest

/-- The values of a list in the order of their keys, the last one of each key. -/
def ofList (entries : List (String × α)) : KeyedList α :=
  entries.foldl (fun sorted entry => insert entry.1 entry.2 sorted) []

/-- The value of the key just inserted is the new one, and the values of the others stay. -/
theorem lookup_insert (key key' : String) (value : α) (entries : KeyedList α) :
    (insert key value entries).lookup key' =
      if key' = key then some value else entries.lookup key' := by
  have lookup_cons (k : String) (v : α) (rest : KeyedList α) :
      List.lookup key' ((k, v) :: rest) = if key' = k then some v else rest.lookup key' := by
    by_cases h : key' = k
    · simp [h]
    · simp [List.lookup_cons, h, beq_eq_false_iff_ne.2 h]
  induction entries with
  | nil => simp only [insert, lookup_cons]
  | cons entry rest ih =>
      obtain ⟨k, v⟩ := entry
      unfold insert
      split
      · rw [lookup_cons]
      · split
        · rename_i hk
          subst hk
          rw [lookup_cons, lookup_cons]
          split <;> rfl
        · rename_i hk
          rw [lookup_cons, lookup_cons, ih]
          by_cases h : key' = key
          · rw [h, if_neg hk, if_pos rfl, if_pos rfl]
          · rw [if_neg h, if_neg h]

end KeyedList

end ModelForge
