import Mathlib.Data.List.Induction
import Mathlib.Data.List.Nodup
import Retype.Proofs.Paths

/-! Listing a tree of files.  A directory lists its entries by age and its subdirectories in place, so that an entry
that is added or written anew moves no other; if it is no source, a scan reads the same sources in the same order. -/

namespace Retype
open Retype.Path

namespace Files

/-- Every entry stands once, under plain names, in a directory and apart from the way to the working directory. -/
structure IsTree (fs : Files) : Prop where
  home : ∀ name ∈ fs.cwd, IsPlain name
  once : (fs.entries.map (·.1)).Nodup
  below : ∀ e ∈ fs.entries, ¬ e.1 <+: fs.cwd
  plain : ∀ e ∈ fs.entries, ∀ name ∈ e.1, IsPlain name
  placed : ∀ e ∈ fs.entries, fs.get? e.1.dropLast = some .directory

instance (fs : Files) : Decidable fs.IsTree :=
  decidable_of_iff ((∀ name ∈ fs.cwd, IsPlain name) ∧ (fs.entries.map (·.1)).Nodup ∧ (∀ e ∈ fs.entries, ¬ e.1 <+: fs.cwd) ∧
      (∀ e ∈ fs.entries, ∀ name ∈ e.1, IsPlain name) ∧ ∀ e ∈ fs.entries, fs.get? e.1.dropLast = some .directory)
    ⟨fun ⟨home, once, below, plain, placed⟩ => ⟨home, once, below, plain, placed⟩,
      fun ⟨home, once, below, plain, placed⟩ => ⟨home, once, below, plain, placed⟩⟩

section Tree
variable {fs : Files}

theorem mem_of_get? {names : List String} {e : Entry} (apart : ¬ names <+: fs.cwd) (found : fs.get? names = some e) :
    (names, e) ∈ fs.entries := by
  rw [get?_outside apart] at found
  obtain ⟨⟨other, _⟩, here, rfl⟩ := Option.map_eq_some_iff.mp found
  obtain rfl : other = names := by simpa using List.find?_some here
  exact List.mem_of_find?_eq_some here

theorem IsTree.get?_of_mem (tree : fs.IsTree) {names : List String} {e : Entry} (mem : (names, e) ∈ fs.entries) :
    fs.get? names = some e := by
  have found : (fs.get? names).isSome = true := by
    rw [get?_outside (tree.below _ mem), Option.isSome_map, List.find?_isSome]
    exact ⟨_, mem, beq_self_eq_true names⟩
  obtain ⟨other, found⟩ := Option.isSome_iff_exists.mp found
  have same := List.inj_on_of_nodup_map tree.once mem (mem_of_get? (tree.below _ mem) found) rfl
  rw [found, (Prod.mk.inj same).2]

theorem IsTree.directory (tree : fs.IsTree) {front rest : List String} (below : rest ≠ []) {e : Entry}
    (mem : (front ++ rest, e) ∈ fs.entries) : fs.get? front = some .directory := by
  induction rest using List.reverseRecOn generalizing e with
  | nil => exact absurd rfl below
  | append_singleton rest name ih =>
    have above := tree.placed _ mem
    rw [← List.append_assoc, List.dropLast_concat] at above
    by_cases last : rest = []
    · rwa [last, List.append_nil] at above
    · by_cases inside : front ++ rest <+: fs.cwd
      · exact get?_above ((List.prefix_append front rest).trans inside)
      · exact ih last (mem_of_get? inside above)

theorem follow_append {start names base rest : List String} (led : fs.follow start names = .ok (base, .directory))
    (down : ∀ name ∈ rest, name ≠ "..")
    (directories : ∀ front, front <+: rest → fs.get? (base ++ front) = some .directory) :
    fs.follow start (names ++ rest) = .ok (base ++ rest, .directory) := by
  induction rest using List.reverseRecOn with
  | nil => simpa using led
  | append_singleton rest name ih =>
    have before := ih (fun other mem => down other (List.mem_append_left _ mem)) fun front inside =>
      directories front (inside.trans (List.prefix_append _ _))
    rw [← List.append_assoc, follow_concat, before]
    dsimp only
    rw [enter_down _ (down name (by simp)), follow_nil, List.append_assoc, directories _ List.prefix_rfl]

theorem find_eq_directory {path : String} {base : List String} : fs.find path = .ok (base, .directory) ↔
    path.isEmpty = false ∧ fs.follow (fs.start path) (Path.names path) = .ok (base, .directory) := by
  rw [find]
  split
  · rename_i odd
    simp [odd]
  · rename_i plain
    simp only [Bool.not_eq_true] at plain
    rw [plain]
    split
    · rename_i led
      rw [led]
      split <;> simp
    · simp

theorem checkDirectory_eq_ok {path : String} :
    fs.checkDirectory path = .ok () ↔ ∃ base, fs.find path = .ok (base, .directory) := by
  rw [checkDirectory]
  split
  · rename_i base found
    simp [found]
  · rename_i found
    simp [found]
  · rename_i found
    simp [found]

def DirectoryAt (fs : Files) (path : String) (names : List String) : Prop :=
  fs.follow (fs.start path) (Path.names path) = .ok (names, .directory)

theorem DirectoryAt.congr {fs fs' : Files} (same : SameDirectories fs fs') {path : String} {names : List String}
    (directory : DirectoryAt fs path names) : DirectoryAt fs' path names := by
  rw [DirectoryAt, same.start]
  exact (follow_directory_iff same _ _ _).mp directory

theorem start_join (fs : Files) (path : String) {name : String} (plain : IsPlain name) :
    fs.start (join path name) = fs.start path := by
  rw [start, start, isRooted_join path plain]

theorem DirectoryAt.directory {path : String} {names : List String} (directory : DirectoryAt fs path names) :
    fs.get? names = some .directory := prefix_directory directory List.prefix_rfl

theorem DirectoryAt.leads {path name : String} {names : List String} (directory : DirectoryAt fs path names)
    (plain : IsPlain name) : Leads fs (join path name) (Path.names path) names name := by
  refine ⟨?_, names_join path plain, (start_join fs path plain).symm ▸ directory, plain.up⟩
  rcases List.eq_nil_or_concat' name.toList with none | ⟨front, last, split⟩
  · exact absurd (String.toList_eq_nil_iff.mp none) plain.nonempty
  · have ends : (join path name).toList = before path ++ front ++ [last] := by
      rw [toList_join, split, List.append_assoc]
    have some : (join path name).isEmpty = false := by
      simp [← Bool.not_eq_true, ← String.toList_eq_nil_iff, ends]
    have flat : last ≠ '/' := fun slash => plain.flat (by rw [split, slash]; simp)
    rw [isOdd, some, ends, List.getLast?_concat]
    simpa using flat

theorem DirectoryAt.parentOf {path name : String} {names : List String} (directory : DirectoryAt fs path names)
    (plain : IsPlain name) : DirectoryAt fs (parentOf (join path name)) names := by
  rwa [DirectoryAt, start, isRooted_parentOf_join plain, names_parentOf_join plain]

end Tree

/-- The entries below a directory by their names from there. -/
def inside (fs : Files) (base : List String) : List (List String × Entry) :=
  fs.entries.filterMap fun (names, e) =>
    if base.isPrefixOf names && names.length > base.length then some (names.drop base.length, e) else none

def precedes (fs : Files) (base : List String) (a b : List String × Entry) : Bool :=
  noLater (fs.ages base a.1) (fs.ages base b.1)

theorem mem_inside {fs : Files} {base rest : List String} {e : Entry} :
    (rest, e) ∈ fs.inside base ↔ rest ≠ [] ∧ (base ++ rest, e) ∈ fs.entries := by
  rw [inside, List.mem_filterMap]
  constructor
  · rintro ⟨⟨names, e'⟩, mem, kept⟩
    dsimp only at kept
    split at kept
    · rename_i below
      obtain ⟨rfl, rfl⟩ := Prod.mk.inj (Option.some.inj kept)
      simp only [Bool.and_eq_true, List.isPrefixOf_iff_prefix, decide_eq_true_eq] at below
      obtain ⟨⟨more, rfl⟩, longer⟩ := below
      rw [List.drop_left]
      refine ⟨?_, mem⟩
      rintro rfl
      simp at longer
    · cases kept
  · rintro ⟨some, mem⟩
    refine ⟨(base ++ rest, e), mem, ?_⟩
    have longer : 0 < rest.length := List.length_pos_iff.mpr some
    simp [longer]

theorem below_eq {fs : Files} {root : String} {base : List String} (found : fs.find root = .ok (base, .directory)) :
    fs.below root = ((fs.inside base).mergeSort (fs.precedes base)).map fun i => (i.1.foldl join root, i.2) := by
  have aged := List.map_mergeSort (r := fs.precedes base) (s := fun a b => noLater a.1 b.1) (l := fs.inside base)
    (f := fun i => (fs.ages base i.1, i)) fun _ _ _ _ => rfl
  rw [below, found]
  dsimp only
  rw [← inside, ← aged, List.map_map]
  rfl

theorem below_eq_nil {fs : Files} {root : String} (missing : ∀ base, fs.find root ≠ .ok (base, .directory)) :
    fs.below root = [] := by
  rw [below]
  split
  · rename_i base found
    exact absurd found (missing base)
  · rfl

theorem noLater_total (xs ys : List Nat) : (noLater xs ys || noLater ys xs) = true := by
  induction xs generalizing ys with
  | nil => simp [noLater]
  | cons x xs ih =>
    cases ys with
    | nil => simp [noLater]
    | cons y ys =>
      have rest := ih ys
      simp only [noLater, Bool.or_eq_true, Bool.and_eq_true, decide_eq_true_eq, beq_iff_eq] at rest ⊢
      rcases Nat.lt_trichotomy x y with less | rfl | more
      · exact .inl (.inl less)
      · exact rest.imp (fun first => .inr ⟨rfl, first⟩) fun second => .inr ⟨rfl, second⟩
      · exact .inr (.inl more)

theorem noLater_trans (xs ys zs : List Nat) :
    noLater xs ys = true → noLater ys zs = true → noLater xs zs = true := by
  induction xs generalizing ys zs with
  | nil => simp [noLater]
  | cons x xs ih =>
    cases ys with
    | nil => simp [noLater]
    | cons y ys =>
      cases zs with
      | nil => simp [noLater]
      | cons z zs =>
        simp only [noLater, Bool.or_eq_true, Bool.and_eq_true, decide_eq_true_eq, beq_iff_eq]
        rintro (first | ⟨rfl, first⟩) (second | ⟨rfl, second⟩)
        · exact .inl (by omega)
        · exact .inl first
        · exact .inl second
        · exact .inr ⟨rfl, ih ys zs first second⟩

theorem noLater_antisymm {xs ys : List Nat} (first : noLater xs ys = true) (second : noLater ys xs = true) :
    xs = ys := by
  induction xs generalizing ys with
  | nil =>
    cases ys with
    | nil => rfl
    | cons y ys => simp [noLater] at second
  | cons x xs ih =>
    cases ys with
    | nil => simp [noLater] at first
    | cons y ys =>
      simp only [noLater, Bool.or_eq_true, Bool.and_eq_true, decide_eq_true_eq, beq_iff_eq] at first second
      rcases Nat.lt_trichotomy x y with less | rfl | more
      · exact absurd second (by omega)
      · simp only [Nat.lt_irrefl, false_or, true_and] at first second
        rw [ih first second]
      · exact absurd first (by omega)

theorem noLater_succ (xs ys : List Nat) : noLater (xs.map (· + 1)) (ys.map (· + 1)) = noLater xs ys := by
  induction xs generalizing ys with
  | nil => simp [noLater]
  | cons x xs ih => cases ys <;> simp [noLater, ih]

theorem precedes_total (fs : Files) (base : List String) (a b : List String × Entry) :
    (fs.precedes base a b || fs.precedes base b a) = true := noLater_total _ _

theorem precedes_trans (fs : Files) (base : List String) (a b c : List String × Entry) :
    fs.precedes base a b = true → fs.precedes base b c = true → fs.precedes base a c = true := noLater_trans _ _ _

theorem mergeSort_congr {α : Type} {le le' : α → α → Bool} {l : List α} (same : ∀ a ∈ l, ∀ b ∈ l, le a b = le' a b) :
    l.mergeSort le = l.mergeSort le' := by
  simpa using List.map_mergeSort (f := id) same

theorem filter_mergeSort {α : Type} {le : α → α → Bool} (trans : ∀ a b c, le a b = true → le b c = true → le a c = true)
    (total : ∀ a b, (le a b || le b a) = true) (p : α → Bool) (l : List α)
    (antisymm : ∀ a ∈ l, ∀ b ∈ l, le a b = true → le b a = true → a = b) :
    (l.mergeSort le).filter p = (l.filter p).mergeSort le := by
  refine List.Perm.eq_of_pairwise (fun a b ha hb => ?_)
    ((List.pairwise_mergeSort trans total l).filter p) (List.pairwise_mergeSort trans total _)
    (((List.mergeSort_perm l le).filter p).trans (List.mergeSort_perm _ le).symm)
  exact antisymm a (List.mem_mergeSort.mp (List.mem_of_mem_filter ha)) b
    (List.mem_of_mem_filter (List.mem_mergeSort.mp hb))

theorem age_injective {fs : Files} {names other : List String} (known : names ∈ fs.entries.map (·.1))
    (same : fs.age names = fs.age other) : names = other := by
  obtain ⟨entry, mem, rfl⟩ := List.mem_map.mp known
  have bound : fs.age entry.1 < fs.entries.reverse.length :=
    List.findIdx_lt_length.mpr ⟨entry, List.mem_reverse.mpr mem, beq_self_eq_true _⟩
  have here : fs.entries.reverse[fs.age entry.1].1 == entry.1 := List.findIdx_getElem (w := bound)
  have there : fs.entries.reverse[fs.age other].1 == other := List.findIdx_getElem (w := same ▸ bound)
  simp only [same] at here
  exact (beq_iff_eq.mp here).symm.trans (beq_iff_eq.mp there)

theorem IsTree.precedes_antisymm {fs : Files} (tree : fs.IsTree) {base : List String} {a b : List String × Entry}
    (ha : a ∈ fs.inside base) (hb : b ∈ fs.inside base) (first : fs.precedes base a b = true)
    (second : fs.precedes base b a = true) : a = b := by
  obtain ⟨rest, e⟩ := a
  obtain ⟨rest', e'⟩ := b
  obtain ⟨some, mem⟩ := mem_inside.mp ha
  obtain ⟨-, mem'⟩ := mem_inside.mp hb
  have ages : fs.ages base rest = fs.ages base rest' := noLater_antisymm first second
  have long : rest.length = rest'.length := by simpa [Files.ages] using congrArg List.length ages
  -- the last of the ages is that of the entry itself
  have last : fs.age (base ++ rest) = fs.age (base ++ rest') := by
    obtain ⟨n, length⟩ := Nat.exists_eq_succ_of_ne_zero fun zero => some (List.length_eq_zero_iff.mp zero)
    have same := congrArg (·[n]?) ages
    simpa [Files.ages, length, ← long, List.take_of_length_le (Nat.le_of_eq length),
      List.take_of_length_le (Nat.le_of_eq (long ▸ length))] using same
  have names := age_injective (List.mem_map_of_mem mem) last
  have entries := List.inj_on_of_nodup_map tree.once mem mem' names
  rw [(Prod.mk.inj entries).2, List.append_cancel_left names]

theorem IsTree.known {fs : Files} (tree : fs.IsTree) {front rest : List String} {e : Entry}
    (apart : ¬ front <+: fs.cwd) (mem : (front ++ rest, e) ∈ fs.entries) : front ∈ fs.entries.map (·.1) := by
  by_cases whole : rest = []
  · rw [whole, List.append_nil] at mem
    exact List.mem_map_of_mem mem
  · exact List.mem_map_of_mem (mem_of_get? apart (tree.directory whole mem))

section Put
variable {fs : Files} {names : List String}

theorem sameDirectories_put (file : fs.get? names ≠ some .directory) (text : String) :
    SameDirectories fs (fs.put names (.file (.text text))) := (wrote_put file text).sameDirectories file

theorem put_of_known (known : names ∈ fs.entries.map (·.1)) (e : Entry) :
    fs.put names e = { fs with entries := replaced names e fs.entries } := by
  rw [put_eq, if_pos]
  obtain ⟨entry, mem, same⟩ := List.mem_map.mp known
  exact List.any_eq_true.mpr ⟨entry, mem, beq_iff_eq.mpr same⟩

theorem put_of_unknown (unknown : names ∉ fs.entries.map (·.1)) (e : Entry) :
    fs.put names e = { fs with entries := fs.entries ++ [(names, e)] } := by
  rw [put_eq, if_neg]
  intro known
  obtain ⟨entry, mem, same⟩ := List.any_eq_true.mp known
  exact unknown (List.mem_map.mpr ⟨entry, mem, beq_iff_eq.mp same⟩)

theorem map_fst_replaced (names : List String) (e : Entry) (entries : List (List String × Entry)) :
    (replaced names e entries).map (·.1) = entries.map (·.1) := by
  rw [replaced, List.map_map]
  refine List.map_congr_left fun entry _ => ?_
  dsimp only [Function.comp_apply]
  split <;> rfl

theorem map_fst_put (fs : Files) (names : List String) (e : Entry) :
    (fs.put names e).entries.map (·.1) =
      if names ∈ fs.entries.map (·.1) then fs.entries.map (·.1) else fs.entries.map (·.1) ++ [names] := by
  split
  · rename_i known
    rw [put_of_known known, map_fst_replaced]
  · rename_i unknown
    rw [put_of_unknown unknown, List.map_append, List.map_singleton]

theorem names_of_mem_put {e : Entry} {entry : List String × Entry} (mem : entry ∈ (fs.put names e).entries) :
    entry.1 = names ∨ ∃ old ∈ fs.entries, old.1 = entry.1 := by
  have listed := List.mem_map_of_mem (f := (·.1)) mem
  rw [map_fst_put] at listed
  split at listed
  · exact .inr (List.mem_map.mp listed)
  · rcases List.mem_append.mp listed with old | new
    · exact .inr (List.mem_map.mp old)
    · exact .inl (List.mem_singleton.mp new)

theorem IsTree.put (tree : fs.IsTree) {above : List String} {name : String} (plain : IsPlain name)
    (directory : fs.get? above = some .directory) (file : fs.get? (above ++ [name]) ≠ some .directory)
    (text : String) : (fs.put (above ++ [name]) (.file (.text text))).IsTree := by
  have same := sameDirectories_put file text
  refine ⟨(cwd_put fs _ _).symm ▸ tree.home, ?_, fun entry mem => ?_, fun entry mem => ?_, fun entry mem => ?_⟩
  · rw [map_fst_put]
    split
    · exact tree.once
    · rename_i unknown
      exact List.nodup_append.mpr ⟨tree.once, List.nodup_singleton _, fun a old b new ab =>
        unknown (by rwa [← List.mem_singleton.mp new, ← ab])⟩
  · rw [cwd_put]
    rcases names_of_mem_put mem with new | ⟨old, mem, names⟩
    · exact new ▸ outside_of_file file
    · exact names ▸ tree.below old mem
  · rcases names_of_mem_put mem with new | ⟨old, mem, names⟩
    · rw [new]
      intro other among
      rcases List.mem_append.mp among with among | last
      · by_cases inside : above <+: fs.cwd
        · exact tree.home other (inside.subset among)
        · exact tree.plain _ (mem_of_get? inside directory) other among
      · exact List.mem_singleton.mp last ▸ plain
    · exact names ▸ tree.plain old mem
  · rw [← same.directory]
    rcases names_of_mem_put mem with new | ⟨old, mem, names⟩
    · rw [new, List.dropLast_concat, directory]
    · exact names ▸ tree.placed old mem

theorem filter_inside_put (fs : Files) {base : List String} {keep : List String × Entry → Bool}
    (hidden : ∀ rest e, rest ≠ [] → base ++ rest = names → keep (rest, e) = false) (e : Entry) :
    ((fs.put names e).inside base).filter keep = (fs.inside base).filter keep := by
  have own : ∀ e, (if base.isPrefixOf names && names.length > base.length then
      Option.some (names.drop base.length, e) else none).filter keep = none := by
    intro e
    split
    · rename_i below
      simp only [Bool.and_eq_true, List.isPrefixOf_iff_prefix, decide_eq_true_eq] at below
      obtain ⟨⟨rest, rfl⟩, longer⟩ := below
      have some : rest ≠ [] := by
        rintro rfl
        simp at longer
      simp [hidden rest e some rfl]
    · rfl
  rw [inside, inside, List.filter_filterMap, List.filter_filterMap]
  by_cases known : names ∈ fs.entries.map (·.1)
  · rw [put_of_known known, replaced, List.filterMap_map]
    refine List.filterMap_congr fun entry _ => ?_
    obtain ⟨other, old⟩ := entry
    dsimp only [Function.comp_apply]
    split
    · rename_i same
      rw [beq_iff_eq.mp same, own, own]
    · rfl
  · rw [put_of_unknown known, List.filterMap_append, List.filterMap_cons_none, List.filterMap_nil, List.append_nil]
    exact own e

theorem age_eq (fs : Files) (names : List String) :
    fs.age names = (fs.entries.map (·.1)).reverse.findIdx (· == names) := by
  rw [age, ← List.map_reverse, List.findIdx_map]
  rfl

theorem age_put_of_known (known : names ∈ fs.entries.map (·.1)) (e : Entry) (other : List String) :
    (fs.put names e).age other = fs.age other := by
  rw [age_eq, age_eq, map_fst_put, if_pos known]

theorem age_put_of_unknown (unknown : names ∉ fs.entries.map (·.1)) (e : Entry) {other : List String}
    (ne : other ≠ names) : (fs.put names e).age other = fs.age other + 1 := by
  have skipped : (names == other) = false := by simpa using Ne.symm ne
  rw [age_eq, age_eq, map_fst_put, if_neg unknown, List.reverse_concat, List.findIdx_cons, skipped]
  rfl

theorem IsTree.precedes_put (tree : fs.IsTree) (apart : ¬ names <+: fs.cwd) (e : Entry) {base : List String}
    {a b : List String × Entry} (ha : a ∈ fs.inside base) (hb : b ∈ fs.inside base) :
    (fs.put names e).precedes base a b = fs.precedes base a b := by
  rw [precedes, precedes]
  by_cases known : names ∈ fs.entries.map (·.1)
  · have same : ∀ rest, (fs.put names e).ages base rest = fs.ages base rest := fun rest => by
      simp only [ages, age_put_of_known known]
    rw [same, same]
  · have older : ∀ {i}, i ∈ fs.inside base → (fs.put names e).ages base i.1 = (fs.ages base i.1).map (· + 1) := by
      rintro ⟨rest, _⟩ mem
      rw [ages, ages, List.map_map]
      refine List.map_congr_left fun n _ => age_put_of_unknown known e fun way => ?_
      have listed := (mem_inside.mp mem).2
      rw [← List.take_append_drop (n + 1) rest, ← List.append_assoc, way] at listed
      exact known (tree.known apart listed)
    rw [older ha, older hb, noLater_succ]

theorem IsTree.mergeSort_put (tree : fs.IsTree) (apart : ¬ names <+: fs.cwd) (e : Entry) {base : List String}
    {l : List (List String × Entry)} (listed : ∀ a ∈ l, a ∈ fs.inside base) :
    l.mergeSort ((fs.put names e).precedes base) = l.mergeSort (fs.precedes base) :=
  mergeSort_congr fun a ha b hb => tree.precedes_put apart e (listed a ha) (listed b hb)

end Put

theorem find_directory_congr {fs fs' : Files} (same : SameDirectories fs fs') (path : String) (base : List String) :
    fs.find path = .ok (base, .directory) ↔ fs'.find path = .ok (base, .directory) := by
  rw [find_eq_directory, find_eq_directory, follow_directory_iff same, same.start]

theorem names_foldl_join (root : String) {rest : List String} (plain : ∀ name ∈ rest, IsPlain name) :
    Path.names (rest.foldl join root) = Path.names root ++ rest := by
  induction rest generalizing root with
  | nil => simp
  | cons name rest ih =>
    rw [List.foldl_cons, ih _ fun other mem => plain other (List.mem_cons_of_mem _ mem),
      names_join root (plain name List.mem_cons_self), List.append_assoc, List.singleton_append]

theorem start_foldl_join (fs : Files) (root : String) {rest : List String} (plain : ∀ name ∈ rest, IsPlain name) :
    fs.start (rest.foldl join root) = fs.start root := by
  induction rest generalizing root with
  | nil => rfl
  | cons name rest ih =>
    rw [List.foldl_cons, ih _ fun other mem => plain other (List.mem_cons_of_mem _ mem),
      start_join fs root (plain name List.mem_cons_self)]

theorem IsTree.directoryAt_of_mem_below {fs : Files} (tree : fs.IsTree) {root path : String} {e : Entry}
    (mem : (path, e) ∈ fs.below root) : ∃ dir names name, DirectoryAt fs dir names ∧ IsPlain name ∧
      path = join dir name ∧ fs.get? (names ++ [name]) = some e := by
  by_cases missing : ∀ base, fs.find root ≠ .ok (base, .directory)
  · rw [below_eq_nil missing] at mem
    cases mem
  · obtain ⟨base, found⟩ := not_forall_not.mp missing
    rw [below_eq found] at mem
    obtain ⟨⟨rest, e⟩, sorted, shown⟩ := List.mem_map.mp mem
    obtain ⟨rfl, rfl⟩ := Prod.mk.inj shown
    obtain ⟨some, listed⟩ := mem_inside.mp (List.mem_mergeSort.mp sorted)
    obtain ⟨rest, name, rfl⟩ := (List.eq_nil_or_concat' rest).resolve_left some
    have plain : ∀ other ∈ rest ++ [name], IsPlain other := fun other mem =>
      tree.plain _ listed other (List.mem_append_right _ mem)
    have inner : ∀ other ∈ rest, IsPlain other := fun other mem => plain other (List.mem_append_left _ mem)
    have led := (find_eq_directory.mp found).2
    refine ⟨rest.foldl join root, base ++ rest, name, ?_, plain name (by simp), by simp, ?_⟩
    · rw [DirectoryAt, start_foldl_join fs root inner, names_foldl_join root inner]
      refine follow_append led (fun other mem => (inner other mem).up) fun front inside => ?_
      obtain ⟨more, rfl⟩ := inside
      have further : (base ++ front ++ (more ++ [name]), e) ∈ fs.entries := by simpa using listed
      exact tree.directory (by simp) further
    · rw [List.append_assoc, tree.get?_of_mem listed]

end Files

namespace Registry
variable {config : Config} {fs : Files} {root : String}

/-- What a scan reads of an entry below a directory. -/
def sourceOf? (config : Config) (root : String) (i : List String × Entry) : Option (String × String) :=
  match i.2 with
  | .file (.text source) =>
    if isSource config (i.1.foldl join root) then some (i.1.foldl join root, source) else none
  | _ => none

theorem sourcesBelow_eq {base : List String} (found : fs.find root = .ok (base, .directory)) :
    sourcesBelow config fs root =
      ((fs.inside base).mergeSort (fs.precedes base)).filterMap (sourceOf? config root) := by
  rw [sourcesBelow, Files.below_eq found, List.filterMap_map]
  refine List.filterMap_congr fun i _ => ?_
  rfl

theorem sourcesBelow_eq_sorted (tree : fs.IsTree) {base : List String}
    (found : fs.find root = .ok (base, .directory)) : sourcesBelow config fs root =
      (((fs.inside base).filter fun i => (sourceOf? config root i).isSome).mergeSort (fs.precedes base)).filterMap
        (sourceOf? config root) := by
  have sorted : ((fs.inside base).mergeSort (fs.precedes base)).filter (fun i => (sourceOf? config root i).isSome) =
      ((fs.inside base).filter fun i => (sourceOf? config root i).isSome).mergeSort (fs.precedes base) :=
    Files.filter_mergeSort (fs.precedes_trans base) (fs.precedes_total base) _ _
      fun a ha b hb => tree.precedes_antisymm ha hb
  rw [sourcesBelow_eq found, ← sorted, List.filterMap_filter]
  refine List.filterMap_congr fun i _ => ?_
  cases sourceOf? config root i <;> rfl

theorem sourcesBelow_put (tree : fs.IsTree) {above : List String} {name : String} (plain : IsPlain name)
    (hidden : ∀ path, isSource config (join path name) = false)
    (directory : fs.get? above = some .directory) (file : fs.get? (above ++ [name]) ≠ some .directory)
    (text : String) :
    sourcesBelow config (fs.put (above ++ [name]) (.file (.text text))) root = sourcesBelow config fs root := by
  have same := Files.sameDirectories_put file text
  by_cases missing : ∀ base, fs.find root ≠ .ok (base, .directory)
  · have missing' : ∀ base, (fs.put (above ++ [name]) (.file (.text text))).find root ≠ .ok (base, .directory) :=
      fun base found => missing base ((Files.find_directory_congr same root base).mpr found)
    rw [sourcesBelow, sourcesBelow, Files.below_eq_nil missing, Files.below_eq_nil missing']
  · obtain ⟨base, found⟩ := not_forall_not.mp missing
    have found' := (Files.find_directory_congr same root base).mp found
    have dropped : ∀ rest e, rest ≠ [] → base ++ rest = above ++ [name] →
        (sourceOf? config root (rest, e)).isSome = false := by
      intro rest e some way
      obtain ⟨rest, last, rfl⟩ := (List.eq_nil_or_concat' rest).resolve_left some
      rw [← List.append_assoc] at way
      obtain ⟨-, rfl⟩ := List.append_singleton_inj.mp way
      have skipped : isSource config ((rest ++ [last]).foldl join root) = false := by
        rw [List.foldl_concat, hidden]
      rw [sourceOf?]
      split
      · rw [skipped]
        rfl
      · rfl
    rw [sourcesBelow_eq_sorted (tree.put plain directory file text) found', sourcesBelow_eq_sorted tree found,
      Files.filter_inside_put fs dropped, tree.mergeSort_put (Files.outside_of_file file) _ fun a mem => List.mem_of_mem_filter mem]

end Registry

end Retype
