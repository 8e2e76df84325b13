import Retype.Proofs.FileWrites
import Retype.Registry

/-! Paths with a plain name at their end.  Such a name is the last one of its path and can be taken off again, and the
output beside a source differs from the source in that name alone; by it no output counts as a source. -/

namespace Retype

namespace Path

/-- A name that is an entry of a directory. -/
structure IsPlain (name : String) : Prop where
  nonempty : name ≠ ""
  here : name ≠ "."
  up : name ≠ ".."
  flat : '/' ∉ name.toList

instance (name : String) : Decidable (IsPlain name) :=
  decidable_of_iff (name ≠ "" ∧ name ≠ "." ∧ name ≠ ".." ∧ '/' ∉ name.toList)
    ⟨fun ⟨nonempty, here, up, flat⟩ => ⟨nonempty, here, up, flat⟩,
      fun ⟨nonempty, here, up, flat⟩ => ⟨nonempty, here, up, flat⟩⟩

theorem names_slash (front rest : List Char) :
    names (String.ofList (front ++ '/' :: rest)) = names (String.ofList front) ++ names (String.ofList rest) := by
  simp only [names, List.splitOn, String.toList_ofList]
  rw [List.splitOnP_append_cons (p := (· == '/')) front rest rfl, List.map_append, List.filter_append]

theorem names_nil : names (String.ofList []) = [] := by
  simp [names]

theorem names_of_plain {name : String} (plain : IsPlain name) : names name = [name] := by
  have whole : name.toList.splitOn '/' = [name.toList] :=
    List.splitOnP_eq_singleton fun c mem => by
      have ne : c ≠ '/' := fun slash => plain.flat (slash ▸ mem)
      simpa using ne
  simp [names, whole, plain.nonempty, plain.here]

theorem names_trimEnd (s : List Char) :
    names (String.ofList (trimEnd s).reverse) = names (String.ofList s.reverse) := by
  induction s using trimEnd.induct with
  | case1 r ih => rw [trimEnd, ih, List.reverse_cons, names_slash, names_nil, List.append_nil]
  | case2 r ih =>
    rw [trimEnd, ih, List.reverse_cons, List.reverse_cons, List.reverse_cons, List.append_assoc, List.singleton_append,
      names_slash, names_slash, names_nil]
    rfl
  | case3 s _ _ => rw [trimEnd.eq_3] <;> assumption

/-- What stands before a name that is joined to a path. -/
def before (path : String) : List Char :=
  if path.isEmpty || path.toList.getLast? == some '/' then path.toList else path.toList ++ ['/']

theorem toList_join (path name : String) : (join path name).toList = before path ++ name.toList := by
  rw [join, before]
  split <;> simp

theorem before_eq (path : String) : before path = [] ∨ ∃ front, before path = front ++ ['/'] := by
  rw [before]
  split
  · rename_i ends
    rcases List.eq_nil_or_concat' path.toList with empty | ⟨front, last, split⟩
    · exact .inl empty
    · rw [Bool.or_eq_true, split, List.getLast?_concat] at ends
      rcases ends with empty | ends
      · simp [String.isEmpty_iff.mp empty] at split
      · obtain rfl := Option.some.inj (beq_iff_eq.mp ends)
        exact .inr ⟨front, split⟩
  · exact .inr ⟨path.toList, rfl⟩

theorem names_before (path : String) : names (String.ofList (before path)) = names path := by
  rw [before]
  split
  · rw [String.ofList_toList]
  · rw [names_slash, names_nil, List.append_nil, String.ofList_toList]

theorem names_join (path : String) {name : String} (plain : IsPlain name) :
    names (join path name) = names path ++ [name] := by
  have joined : join path name = String.ofList (before path ++ name.toList) := by
    rw [← toList_join, String.ofList_toList]
  rw [joined, ← names_before path]
  rcases before_eq path with none | ⟨front, slash⟩
  · rw [none, List.nil_append, String.ofList_toList, names_nil, List.nil_append, names_of_plain plain]
  · rw [slash, List.append_assoc, List.singleton_append, names_slash, names_slash, names_nil, List.append_nil,
      String.ofList_toList, names_of_plain plain]

theorem trimEnd_of_plain {name : String} (plain : IsPlain name) (rest : List Char) :
    trimEnd (name.toList.reverse ++ rest) = name.toList.reverse ++ rest := by
  have whole : name = String.ofList name.toList.reverse.reverse := by
    rw [List.reverse_reverse, String.ofList_toList]
  have flat : '/' ∉ name.toList.reverse := fun mem => plain.flat (List.mem_reverse.mp mem)
  rw [trimEnd.eq_3]
  · intro r slash
    rcases front : name.toList.reverse with _ | ⟨c, cs⟩
    · exact plain.nonempty (by rw [whole, front]; rfl)
    · rw [front] at slash flat
      cases slash
      exact flat (List.mem_cons_self)
  · intro r dot
    rcases front : name.toList.reverse with _ | ⟨c, _ | ⟨d, cs⟩⟩
    · exact plain.nonempty (by rw [whole, front]; rfl)
    · rw [front] at dot
      cases dot
      exact plain.here (by rw [whole, front]; rfl)
    · rw [front] at dot flat
      cases dot
      exact flat (List.mem_cons_of_mem _ List.mem_cons_self)

theorem trimmed_join (path : String) {name : String} (plain : IsPlain name) :
    trimmed (join path name) = name.toList.reverse ++ (before path).reverse := by
  have some : name.toList.reverse ≠ [] := by
    simpa using plain.nonempty
  rw [trimmed, toList_join, List.reverse_append, trimEnd_of_plain plain]
  simp [some]

theorem takeWhile_name {name : String} (plain : IsPlain name) (path : String) :
    (name.toList.reverse ++ (before path).reverse).takeWhile (· != '/') = name.toList.reverse ∧
    (name.toList.reverse ++ (before path).reverse).dropWhile (· != '/') = (before path).reverse := by
  have all : ∀ c ∈ name.toList.reverse, (c != '/') = true := fun c mem => by
    have ne : c ≠ '/' := fun slash => plain.flat (slash ▸ List.mem_reverse.mp mem)
    simpa using ne
  rw [List.takeWhile_append_of_pos all, List.dropWhile_append_of_pos all]
  rcases before_eq path with none | ⟨front, slash⟩
  · simp [none]
  · simp [slash]

theorem lastName_join (path : String) {name : String} (plain : IsPlain name) : lastName (join path name) = name := by
  rw [lastName, trimmed_join path plain, (takeWhile_name plain path).1, List.reverse_reverse, String.ofList_toList]

theorem fileName?_join (path : String) {name : String} (plain : IsPlain name) :
    fileName? (join path name) = some name := by
  simp [fileName?, lastName_join path plain, plain.nonempty, plain.here, plain.up]

theorem trimEnd_suffix (s : List Char) : trimEnd s <:+ s := by
  induction s using trimEnd.induct with
  | case1 r ih => exact ih.trans (List.suffix_cons _ _)
  | case2 r ih => exact ih.trans (List.suffix_cons _ _)
  | case3 s _ _ =>
    have same : trimEnd s = s := by rw [trimEnd.eq_3] <;> assumption
    exact ⟨[], by rw [same, List.nil_append]⟩

theorem isRooted_ofList (s : List Char) : Files.isRooted (String.ofList s) = (s.head? == some '/') := by
  rw [Files.isRooted, String.toList_ofList]

theorem isRooted_before (path : String) : Files.isRooted (String.ofList (before path)) = Files.isRooted path := by
  rw [isRooted_ofList, before, Files.isRooted]
  split
  · rfl
  · rename_i some
    rcases front : path.toList with _ | ⟨c, cs⟩
    · simp [String.toList_eq_nil_iff.mp front] at some
    · rfl

theorem isRooted_join (path : String) {name : String} (plain : IsPlain name) :
    Files.isRooted (join path name) = Files.isRooted path := by
  rw [← isRooted_before path, isRooted_ofList, Files.isRooted, toList_join]
  rcases front : before path with _ | ⟨c, cs⟩
  · rcases first : name.toList with _ | ⟨c, cs⟩
    · rfl
    · have ne : c ≠ '/' := fun slash => plain.flat (by rw [first, slash]; exact List.mem_cons_self)
      simp [ne]
  · rfl

theorem parentOf_join {path name : String} (plain : IsPlain name) :
    parentOf (join path name) = if trimEnd (before path).reverse = [] ∧ Files.isRooted path = true then "/"
      else String.ofList (trimEnd (before path).reverse).reverse := by
  have rooted : ((join path name).toList.head? == some '/') = Files.isRooted path := isRooted_join path plain
  have slash : Files.isRooted path = true → (before path).head? = some '/' := fun rooted => by
    rw [← isRooted_before, isRooted_ofList] at rooted
    exact eq_of_beq rooted
  rw [parentOf, trimmed_join path plain, (takeWhile_name plain path).2, rooted]
  by_cases atRoot : Files.isRooted path = true
  · simp [atRoot, slash atRoot, List.isEmpty_iff]
  · simp [atRoot]

theorem names_parentOf_join {path name : String} (plain : IsPlain name) :
    names (parentOf (join path name)) = names path := by
  have kept : names (String.ofList (trimEnd (before path).reverse).reverse) = names path := by
    rw [names_trimEnd, List.reverse_reverse, names_before]
  rw [parentOf_join plain]
  split
  · rename_i bare
    rw [← kept, bare.1]
    decide
  · exact kept

theorem isRooted_parentOf_join {path name : String} (plain : IsPlain name) :
    Files.isRooted (parentOf (join path name)) = Files.isRooted path := by
  obtain ⟨more, trimmed⟩ := trimEnd_suffix (before path).reverse
  have front : before path = (trimEnd (before path).reverse).reverse ++ more.reverse := by
    rw [← List.reverse_append, trimmed, List.reverse_reverse]
  rw [parentOf_join plain]
  split
  · rename_i bare
    rw [bare.2]
    decide
  · rename_i longer
    rw [isRooted_ofList]
    rcases kept : (trimEnd (before path).reverse).reverse with _ | ⟨c, cs⟩
    · exact (Bool.eq_false_iff.mpr fun rooted => longer ⟨List.reverse_eq_nil_iff.mp kept, rooted⟩).symm
    · rw [← isRooted_before, front, kept, isRooted_ofList]
      rfl

def codeName (stem : String) : String := stem ++ ".rs"

theorem toList_codeName (stem : String) :
    (codeName stem).toList.reverse = 's' :: 'r' :: '.' :: stem.toList.reverse := by
  simp [codeName]

theorem codeName_injective : Function.Injective codeName := by
  intro stem other same
  have ends := toList_codeName stem
  rw [same, toList_codeName] at ends
  simp only [List.cons.injEq, true_and, List.reverse_inj, String.toList_inj] at ends
  exact ends.symm

theorem splitName_eq_rs {name stem : String} :
    splitName name = (stem, some "rs") ↔ name = codeName stem ∧ stem ≠ "" := by
  constructor
  · intro split
    rw [splitName] at split
    split at split
    · cases split
    · rename_i named
      obtain ⟨rfl, ext⟩ := Prod.mk.inj split
      have letters : name.toList.reverse.takeWhile (· != '.') = ['s', 'r'] := by
        have same := congrArg String.toList (Option.some.inj ext)
        rw [String.toList_ofList] at same
        exact List.reverse_inj.mp same
      simp only [Bool.or_eq_true, not_or, letters] at named
      refine ⟨?_, by simpa [letters] using named.2⟩
      have parts := List.takeWhile_append_dropWhile (p := (· != '.')) (l := name.toList.reverse)
      rw [letters] at parts ⊢
      rcases after : name.toList.reverse.dropWhile (· != '.') with _ | ⟨c, cs⟩
      · rw [after] at parts
        simp [← parts] at named
      · have point : c = '.' := by
          have stops := List.head_dropWhile_not (· != '.') (l := name.toList.reverse) (by simp [after])
          simpa [after] using stops
        rw [after, point] at parts
        rw [← String.toList_inj, ← List.reverse_inj, toList_codeName, ← parts, String.toList_ofList]
        simp
  · rintro ⟨rfl, some⟩
    have other : (codeName stem == "..") = false := by
      rw [beq_eq_false_iff_ne]
      intro same
      have ends := toList_codeName stem
      rw [same] at ends
      simp at ends
    rw [splitName, toList_codeName]
    simp [other, some]

theorem stem?_join (path : String) {name : String} (plain : IsPlain name) :
    stem? (join path name) = some (splitName name).1 := by
  rw [stem?, fileName?_join path plain, Option.map_some]

theorem extension?_join (path : String) {name : String} (plain : IsPlain name) :
    extension? (join path name) = (splitName name).2 := by
  rw [extension?, fileName?_join path plain, Option.bind_some]

theorem output_join {path stem : String} (plain : IsPlain (codeName stem)) (some : stem ≠ "") (suffix : String) :
    output (join path (codeName stem)) suffix =
      join (parentOf (join path (codeName stem))) (codeName (stem ++ suffix)) := by
  rw [output, withFileName, fileName?_join path plain, stem?_join path plain,
    splitName_eq_rs.mpr ⟨rfl, some⟩, Option.getD_some, if_pos Option.isSome_some]
  rfl

theorem isPlain_codeName {stem : String} (flat : '/' ∉ stem.toList) : IsPlain (codeName stem) := by
  have ends := toList_codeName stem
  refine ⟨fun same => ?_, fun same => ?_, fun same => ?_, fun slash => ?_⟩
  · simp [same] at ends
  · simp [same] at ends
  · simp [same] at ends
  · rw [← List.mem_reverse, ends] at slash
    simp [flat] at slash

theorem flat_of_codeName {stem : String} (plain : IsPlain (codeName stem)) : '/' ∉ stem.toList := by
  intro slash
  refine plain.flat (List.mem_reverse.mp ?_)
  rw [toList_codeName]
  simp [slash]

end Path

namespace Registry
open Retype.Path

theorem isSource_join (config : Config) (path : String) {name : String} (plain : IsPlain name) :
    isSource config (join path name) =
      ((splitName name).2 == some "rs" && !config.outputSuffix.toList.isSuffixOf (splitName name).1.toList) := by
  rw [isSource, extension?_join path plain, stem?_join path plain, Option.any_some]

theorem isSource_join_iff (config : Config) (path : String) {name : String} (plain : IsPlain name) :
    isSource config (join path name) = true ↔
      ∃ stem, name = codeName stem ∧ stem ≠ "" ∧ ¬ config.outputSuffix.toList <:+ stem.toList := by
  rw [isSource_join config path plain, Bool.and_eq_true, beq_iff_eq, Bool.not_eq_true', ← Bool.not_eq_true,
    List.isSuffixOf_iff_suffix]
  constructor
  · rintro ⟨code, own⟩
    obtain ⟨named, some⟩ := splitName_eq_rs.mp (Prod.ext rfl code)
    exact ⟨_, named, some, own⟩
  · rintro ⟨stem, rfl, some, own⟩
    rw [splitName_eq_rs.mpr ⟨rfl, some⟩]
    exact ⟨rfl, own⟩

theorem isSource_suffixed (config : Config) (path : String) {stem : String}
    (plain : IsPlain (codeName (stem ++ config.outputSuffix))) :
    isSource config (join path (codeName (stem ++ config.outputSuffix))) = false := by
  rw [← Bool.not_eq_true, isSource_join_iff config path plain]
  rintro ⟨other, same, -, own⟩
  rw [← codeName_injective same, String.toList_append] at own
  exact own (List.suffix_append _ _)

end Registry

end Retype
