import Mathlib.Data.List.Induction
import Mathlib.Data.List.Sort
import Retype.Table

/-! Look-ups by a key.  Where keys are distinct a look-up finds the one thing that has the key, wherever it stands; a
table has of several entries for a key the last. -/

namespace Retype

section Keyed
variable {α : Type} {key : α → String} {xs ys : List α}

theorem find?_key_eq_some (distinct : (xs.map key).Nodup) {k : String} {x : α} :
    xs.find? (key · == k) = some x ↔ x ∈ xs ∧ key x = k := by
  constructor
  · intro found
    exact ⟨List.mem_of_find?_eq_some found, beq_iff_eq.mp (List.find?_some (p := fun x => key x == k) found)⟩
  · rintro ⟨mem, rfl⟩
    induction xs with
    | nil => cases mem
    | cons y xs ih =>
      obtain ⟨fresh, distinct⟩ := List.nodup_cons.mp distinct
      rw [List.find?_cons]
      rcases List.mem_cons.mp mem with rfl | mem
      · rw [beq_self_eq_true]
      · have other : (key y == key x) = false := by
          refine beq_eq_false_iff_ne.mpr fun same => fresh ?_
          exact List.mem_map.mpr ⟨x, mem, same.symm⟩
        rw [other]
        exact ih distinct mem

theorem find?_key_of_mem (distinct : (xs.map key).Nodup) {x : α} (mem : x ∈ xs) :
    xs.find? (key · == key x) = some x :=
  (find?_key_eq_some distinct).mpr ⟨mem, rfl⟩

theorem find?_key_of_perm (distinct : (xs.map key).Nodup) (perm : xs.Perm ys) (k : String) :
    ys.find? (key · == k) = xs.find? (key · == k) := by
  refine Option.ext fun x => ?_
  rw [find?_key_eq_some distinct, find?_key_eq_some ((perm.map key).nodup_iff.mp distinct), perm.mem_iff]

theorem eq_of_perm_of_key (distinct : (xs.map key).Nodup) (one : ∀ x ∈ xs, ∀ y ∈ xs, key x = key y)
    (perm : xs.Perm ys) : xs = ys := by
  match xs with
  | [] => exact (List.nil_perm.mp perm).symm
  | [x] => exact List.singleton_perm.mp perm
  | x :: y :: rest =>
    have same := one x List.mem_cons_self y (List.mem_cons_of_mem _ List.mem_cons_self)
    exact ((List.nodup_cons.mp distinct).1 (List.mem_cons.mpr (.inl same))).elim

end Keyed

section Orders
variable {α β : Type} {f : α → Option β} {xs : List α}

theorem findSome?_reverse_perm_iff : (∀ ys, xs.Perm ys → ys.reverse.findSome? f = xs.reverse.findSome? f) ↔
    ∀ a ∈ xs, ∀ b ∈ xs, ∀ p q, f a = some p → f b = some q → p = q := by
  constructor
  · intro same a mem b mem' p q first second
    have ending : ∀ {x : α} {r : β}, x ∈ xs → f x = some r → xs.reverse.findSome? f = some r := by
      intro x r mem answer
      obtain ⟨before, after, rfl⟩ := List.append_of_mem mem
      have perm : (before ++ x :: after).Perm (before ++ after ++ [x]) :=
        List.perm_middle.trans (List.perm_append_singleton x _).symm
      rw [← same _ perm, List.reverse_concat, List.findSome?_cons, answer]
    exact Option.some.inj ((ending mem first).symm.trans (ending mem' second))
  · intro agree ys perm
    have mem_iff : ∀ x, x ∈ ys.reverse ↔ x ∈ xs := fun x => List.mem_reverse.trans perm.mem_iff.symm
    cases found : ys.reverse.findSome? f with
    | none =>
      rw [List.findSome?_eq_none_iff] at found
      refine (List.findSome?_eq_none_iff.mpr fun x mem => ?_).symm
      exact found x ((mem_iff x).mpr (List.mem_reverse.mp mem))
    | some p =>
      obtain ⟨a, mem, first⟩ := List.exists_of_findSome?_eq_some found
      have answered : (xs.reverse.findSome? f).isSome = true := by
        rw [List.findSome?_isSome_iff]
        exact ⟨a, List.mem_reverse.mpr ((mem_iff a).mp mem), by rw [first]; rfl⟩
      obtain ⟨q, found'⟩ := Option.isSome_iff_exists.mp answered
      obtain ⟨b, mem', second⟩ := List.exists_of_findSome?_eq_some found'
      rw [found', agree a ((mem_iff a).mp mem) b (List.mem_reverse.mp mem') p q first second]

end Orders

namespace Table
variable {α : Type}

theorem get?_ofList_append (entries : List (String × α)) (key : String) (value : α) (k : String) :
    get? (ofList (entries ++ [(key, value)])) k = if k = key then some value else get? (ofList entries) k := by
  rw [ofList, List.foldl_append, ← ofList, List.foldl_cons, List.foldl_nil]
  by_cases same : k = key
  · rw [if_pos same, same, get?_insert_self]
  · rw [if_neg same, get?_insert_of_ne _ _ same]

theorem get?_ofList (entries : List (String × α)) (k : String) :
    get? (ofList entries) k = (entries.reverse.find? (·.1 == k)).map (·.2) := by
  induction entries using List.reverseRecOn with
  | nil => rfl
  | append_singleton entries last ih =>
    obtain ⟨key, value⟩ := last
    rw [get?_ofList_append, ih, List.reverse_concat, List.find?_cons]
    by_cases same : k = key
    · rw [if_pos same, same, beq_self_eq_true]
      rfl
    · rw [if_neg same, beq_eq_false_iff_ne.mpr (Ne.symm same)]

theorem mem_of_mem_insert {t : Table α} {key k : String} {value v : α} (mem : (k, v) ∈ insert key value t) :
    (k, v) = (key, value) ∨ (k, v) ∈ t := by
  induction t with
  | nil => exact .inl (List.mem_singleton.mp mem)
  | cons e rest ih =>
    rw [insert] at mem
    split at mem
    · rcases List.mem_cons.mp mem with new | old
      · exact .inl new
      · exact .inr (List.mem_cons_of_mem _ old)
    · split at mem
      · exact List.mem_cons.mp mem
      · rcases List.mem_cons.mp mem with first | later
        · exact .inr (first ▸ List.mem_cons_self)
        · exact (ih later).imp_right (List.mem_cons_of_mem _)

theorem mem_of_mem_ofList {entries : List (String × α)} {k : String} {v : α} (mem : (k, v) ∈ ofList entries) :
    (k, v) ∈ entries := by
  induction entries using List.reverseRecOn with
  | nil => cases mem
  | append_singleton entries e ih =>
    rw [ofList, List.foldl_concat, ← ofList] at mem
    rcases mem_of_mem_insert mem with new | old
    · exact List.mem_append_right _ (List.mem_singleton.mpr new)
    · exact List.mem_append_left _ (ih old)

/-- The keys of a table in their order, each once. -/
def Sorted (t : Table α) : Prop := (t.map (·.1)).Pairwise (· < ·)

theorem mem_keys_insert {t : Table α} {key k : String} {value : α} :
    k ∈ (insert key value t).map (·.1) ↔ k = key ∨ k ∈ t.map (·.1) := by
  have known := isSome_get?_insert t key k value
  rw [isSome_get?, isSome_get?, Bool.eq_iff_iff, Bool.or_eq_true, beq_iff_eq, List.contains_iff_mem,
    List.contains_iff_mem] at known
  rw [known, eq_comm]

theorem Sorted.insert {t : Table α} (sorted : Sorted t) (key : String) (value : α) :
    Sorted (Table.insert key value t) := by
  induction t with
  | nil => exact List.pairwise_singleton _ _
  | cons e rest ih =>
    obtain ⟨k, v⟩ := e
    obtain ⟨before, sorted⟩ := List.pairwise_cons.mp sorted
    unfold Table.insert
    split
    · rename_i same
      exact List.pairwise_cons.mpr ⟨same ▸ before, sorted⟩
    · rename_i other
      split
      · rename_i smaller
        refine List.pairwise_cons.mpr ⟨?_, List.pairwise_cons.mpr ⟨before, sorted⟩⟩
        intro k' mem
        rcases List.mem_cons.mp mem with rfl | mem
        · exact smaller
        · exact String.lt_trans smaller (before k' mem)
      · rename_i larger
        refine List.pairwise_cons.mpr ⟨fun k' mem => ?_, ih sorted⟩
        rcases mem_keys_insert.mp mem with rfl | mem
        · by_contra notLarger
          exact other (String.le_antisymm (String.not_lt.mp notLarger) (String.not_lt.mp larger))
        · exact before k' mem

theorem Sorted.eq_of_mem_iff {t u : Table α} (sorted : Sorted t) (sorted' : Sorted u)
    (same : ∀ k, k ∈ t.map (·.1) ↔ k ∈ u.map (·.1)) : t.map (·.1) = u.map (·.1) :=
  List.Pairwise.eq_of_mem_iff sorted sorted' same

theorem sorted_ofList (entries : List (String × α)) : Sorted (ofList entries) := by
  induction entries using List.reverseRecOn with
  | nil => exact List.Pairwise.nil
  | append_singleton entries last ih =>
    rw [ofList, List.foldl_append, ← ofList]
    exact ih.insert _ _

end Table
end Retype
