/-! Tables from texts to values, kept in the order of their keys.  A later entry for a key replaces the one
before it. -/

namespace Retype

abbrev Table (α : Type) := List (String × α)

namespace Table
variable {α : Type}

def insert (key : String) (value : α) : Table α → Table α
  | [] => [(key, value)]
  | (k, v) :: rest =>
    if key = k then (key, value) :: rest
    else if key < k then (key, value) :: (k, v) :: rest
    else (k, v) :: insert key value rest

def get? (t : Table α) (key : String) : Option α := (t.find? (·.1 == key)).map (·.2)

def ofList (entries : List (String × α)) : Table α :=
  entries.foldl (fun t (k, v) => insert k v t) []

theorem get?_insert_self (t : Table α) (key : String) (value : α) :
    get? (insert key value t) key = some value := by
  induction t with
  | nil => simp [insert, get?]
  | cons e rest ih =>
    obtain ⟨k, v⟩ := e
    unfold insert
    split
    · simp [get?]
    · rename_i hk
      split
      · simp [get?]
      · simpa [get?, List.find?_cons, beq_eq_false_iff_ne.2 (Ne.symm hk)] using ih

theorem get?_insert_of_ne (t : Table α) {key other : String} (value : α) (h : other ≠ key) :
    get? (insert key value t) other = get? t other := by
  induction t with
  | nil => simp [insert, get?, beq_eq_false_iff_ne.2 (Ne.symm h)]
  | cons e rest ih =>
    obtain ⟨k, v⟩ := e
    unfold insert
    split
    · rename_i hk
      subst hk
      simp [get?, beq_eq_false_iff_ne.2 (Ne.symm h)]
    · split
      · simp [get?, beq_eq_false_iff_ne.2 (Ne.symm h)]
      · by_cases hk : k = other
        · simp [get?, hk]
        · simpa [get?, List.find?_cons, beq_eq_false_iff_ne.2 hk] using ih

theorem isSome_get?_insert (t : Table α) (key k : String) (v : α) :
    (get? (insert key v t) k).isSome = (key == k || (get? t k).isSome) := by
  by_cases same : k = key
  · subst same
    rw [get?_insert_self, beq_self_eq_true, Bool.true_or]
    rfl
  · rw [get?_insert_of_ne t v same, beq_eq_false_iff_ne.mpr (Ne.symm same), Bool.false_or]

theorem isSome_get?_ofList (entries : List (String × α)) (k : String) :
    (get? (ofList entries) k).isSome = entries.any (·.1 == k) := by
  have fold : ∀ t : Table α, (get? (entries.foldl (fun t (k, v) => insert k v t) t) k).isSome =
      ((get? t k).isSome || entries.any (·.1 == k)) := by
    induction entries with
    | nil =>
      intro t
      rw [List.foldl_nil, List.any_nil, Bool.or_false]
    | cons e entries ih =>
      intro t
      rw [List.foldl_cons, ih, isSome_get?_insert, List.any_cons, Bool.or_comm (e.1 == k), Bool.or_assoc]
  exact fold []

theorem isSome_get? (t : Table α) (key : String) : (get? t key).isSome = (t.map (·.1)).contains key := by
  induction t with
  | nil => rfl
  | cons e rest ih =>
    rw [List.map_cons, List.contains_cons, ← ih, get?, get?, List.find?_cons, BEq.comm]
    cases key == e.1 <;> rfl

theorem insert_perm {t : Table α} {key : String} (fresh : key ∉ t.map (·.1)) (value : α) :
    (insert key value t).Perm ((key, value) :: t) := by
  induction t with
  | nil => exact .refl _
  | cons e rest ih =>
    obtain ⟨k, v⟩ := e
    rw [List.map_cons, List.mem_cons, not_or] at fresh
    rw [insert, if_neg fresh.1]
    split
    · exact .refl _
    · exact ((ih fresh.2).cons _).trans (.swap _ _ _)

end Table
end Retype
