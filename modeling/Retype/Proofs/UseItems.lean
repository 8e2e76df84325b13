import Retype.Imports
import Retype.Code.Declaration
import Retype.Proofs.TypeText

/-! The imports that are added.  The import of a plain path is an item without attributes and visibility whose tree of
names is that path, so it brings the last name of the path and refers to nothing. -/

namespace Retype.Imports
open Retype.Code
open Code.Parser Code.Grammar

/-- Names joined by `::`, perhaps from the root, of which the last one is an identifier. -/
structure PlainPath where
  rooted : Bool
  names : List String
  last : String
  names_lead : ∀ n ∈ names, isUseWord [word n] = true
  last_plain : last ∉ keywords

namespace PlainPath

def mark (p : PlainPath) : Trees := if p.rooted then [op "::"] else []

def tree (p : PlainPath) : Tree := .node .path (p.mark ++ joinSegments ((p.names ++ [p.last]).map segmentOf))

end PlainPath

/-- Names with `::` after each, and a last name. -/
def nameTokens : List String → String → Trees
  | [], last => [word last]
  | n :: names, last => word n :: .leaf (.punct ":" true) :: op ":" :: nameTokens names last

/-- What an import of the path holds. -/
def useTreeOf : List String → String → Tree
  | [], last => .node (.useTree .name) [word last]
  | n :: names, last => .node (.useTree .path) [word n, op "::", useTreeOf names last]

theorem raw_joinSegments (names : List String) (last : String) :
    Trees.raw (joinSegments ((names ++ [last]).map segmentOf)) = nameTokens names last := by
  have raw_segment (n : String) : (segmentOf n).raw = [word n] := rfl
  have raw_colons : (op "::").raw = [.leaf (.punct ":" true), op ":"] := rfl
  have raw_cons (n : String) {segments : Trees} (more : segments ≠ []) :
      Trees.raw (joinSegments (segmentOf n :: segments)) =
        word n :: .leaf (.punct ":" true) :: op ":" :: Trees.raw (joinSegments segments) := by
    obtain ⟨s, rest, rfl⟩ := List.exists_cons_of_ne_nil more
    rw [joinSegments, Trees.raw, Trees.raw, raw_segment, raw_colons]
    rfl
  induction names with
  | nil => rfl
  | cons n names ih =>
    have more : (names ++ [last]).map segmentOf ≠ [] := by simp
    rw [List.cons_append, List.map_cons, raw_cons n more, ih, nameTokens]

theorem run_orElse_some {α : Type} {p q : Parser α} {s s' : Trees} {a : α} (h : p.run s = some (a, s')) :
    (p <|> q).run s = some (a, s') := by
  change (p.run s <|> q.run s) = _
  rw [h]
  rfl

theorem isUseWord_cons (n : String) (rest : Trees) : isUseWord (word n :: rest) = isUseWord [word n] := rfl

theorem run_useTree {names : List String} {last : String} (lead : ∀ n ∈ names, isUseWord [word n] = true)
    (plain : last ∉ keywords) {fuel : Nat} (enough : names.length < fuel) :
    (useTree fuel).run (nameTokens names last ++ [op ";"]) = some (useTreeOf names last, [op ";"]) := by
  induction fuel generalizing names with
  | zero => exact absurd enough (Nat.not_lt_zero _)
  | succ fuel ih =>
    match names with
    | [] =>
      have begins : isUseWord (word last :: [op ";"]) = true := by
        rw [isUseWord, isIdent_word plain, Bool.true_or]
      have name : eatAnyWord.run (word last :: [op ";"]) = some (word last, [op ";"]) := rfl
      rw [nameTokens, List.singleton_append, useTree, run_peek_bind, begins, if_pos rfl, run_bind_some name]
      rfl
    | n :: names =>
      have begins (rest : Trees) : isUseWord (word n :: rest) = true := by
        rw [isUseWord_cons, lead n List.mem_cons_self]
      have name (rest : Trees) : eatAnyWord.run (word n :: rest) = some (word n, rest) := rfl
      have colons (rest : Trees) :
          (eatOp "::").run (.leaf (.punct ":" true) :: op ":" :: rest) = some (op "::", rest) := rfl
      have inner := ih (fun m mem => lead m (List.mem_cons_of_mem n mem)) (Nat.lt_of_succ_lt_succ enough)
      have path (rest : Trees) : isOp "::" (.leaf (.punct ":" true) :: op ":" :: rest) = true := rfl
      rw [nameTokens, List.cons_append, List.cons_append, List.cons_append, useTree, run_peek_bind, begins, if_pos rfl,
        run_bind_some (name _), run_peek_bind, path, if_pos rfl, run_bind_some (colons _), run_bind_some inner]
      rfl

theorem run_outerAttributes_none {g : Rules} {s : Trees} (h : isOp "#" s = false) :
    (outerAttributes g).run s = some (noAttrs, s) := by
  rw [outerAttributes, run_bind_some (run_manyWhile_none h)]
  rfl

/-- The mark of a path from the root, as an import holds it. -/
def PlainPath.root (p : PlainPath) : Tree := if p.rooted then op "::" else Tree.absent

/-- The import of a plain path. -/
def PlainPath.item (p : PlainPath) : Tree :=
  .node (.item .use) [noAttrs, Tree.absent, word "use", p.root, useTreeOf p.names p.last, op ";"]

theorem PlainPath.raw_tree (p : PlainPath) : p.tree.raw = Trees.raw p.mark ++ nameTokens p.names p.last := by
  rw [PlainPath.tree, Tree.raw, Trees.raw_append, raw_joinSegments]

theorem run_optRoot (p : PlainPath) (rest : Trees) :
    (optOp "::").run (Trees.raw p.mark ++ nameTokens p.names p.last ++ rest) =
      some (p.root, nameTokens p.names p.last ++ rest) := by
  cases rooted : p.rooted with
  | true =>
    have mark : p.mark = [op "::"] := by rw [PlainPath.mark, rooted, if_pos rfl]
    rw [PlainPath.root, rooted, if_pos rfl, mark]
    rfl
  | false =>
    have mark : p.mark = [] := by rw [PlainPath.mark, rooted, if_neg Bool.false_ne_true]
    have begins : isOp "::" (nameTokens p.names p.last ++ rest) = false := by
      cases p.names <;> rfl
    rw [PlainPath.root, rooted, if_neg Bool.false_ne_true, mark, Trees.raw, List.nil_append]
    exact run_optional_false begins

theorem length_le_size (names : List String) (last : String) (rest : Trees) :
    names.length ≤ Trees.size (nameTokens names last ++ rest) := by
  induction names with
  | nil => exact Nat.zero_le _
  | cons n names ih =>
    rw [nameTokens, List.cons_append, List.cons_append, List.cons_append, Trees.size, Trees.size, Trees.size]
    have one : (word n).size = 1 := rfl
    rw [one, List.length_cons]
    omega

theorem run_itemRest_use {g : Rules} {attrs vis : Tree} (s : Trees) :
    (itemRest g attrs vis).run (word "use" :: s) = (useItem attrs vis).run (word "use" :: s) := by
  have signature : beginsSignature (word "use" :: s) = false := rfl
  have foreign : beginsForeignMod (word "use" :: s) = false := rfl
  have crate : (isWord "extern" (word "use" :: s) && ahead 1 (isWord "crate") (word "use" :: s)) = false := rfl
  have begins : isWord "use" (word "use" :: s) = true := rfl
  rw [itemRest, run_peek_bind, signature, if_neg Bool.false_ne_true, run_peek_bind, foreign, if_neg Bool.false_ne_true,
    run_peek_bind, crate, if_neg Bool.false_ne_true, run_peek_bind, begins, if_pos rfl]

theorem importOf?_tree (p : PlainPath) : importOf? p.tree = some p.item := by
  have tree : (useTree (Trees.size (nameTokens p.names p.last ++ [op ";"]) + 1)).run
      (nameTokens p.names p.last ++ [op ";"]) = some (useTreeOf p.names p.last, [op ";"]) :=
    run_useTree p.names_lead p.last_plain (Nat.lt_succ_of_le (length_le_size _ _ _))
  have keyword (s : Trees) : (eatWord "use").run (word "use" :: s) = some (word "use", s) := rfl
  have whole : (useItem noAttrs Tree.absent).run (word "use" :: (p.tree.raw ++ [op ";"])) = some (p.item, []) := by
    rw [useItem, run_bind_some (keyword _), p.raw_tree, run_bind_some (run_optRoot p _)]
    exact (run_bind_some (p := fun s => useTree (Trees.size s + 1) s) tree).trans rfl
  have run (g : Rules) : (item g).run (word "use" :: (p.tree.raw ++ [op ";"])) = some (p.item, []) := by
    have attrs (s : Trees) : (outerAttributes g).run (word "use" :: s) = some (noAttrs, word "use" :: s) :=
      run_outerAttributes_none rfl
    have vis (s : Trees) : visibility.run (word "use" :: s) = some (Tree.absent, word "use" :: s) :=
      run_optional_false rfl
    refine run_orElse_some ?_
    rw [run_bind_some (attrs _), run_bind_some (vis _), run_itemRest_use, whole]
  rw [importOf?, parseAll, Parser.all, List.cons_append, run]

theorem bindings_useTreeOf {last : String} (plain : last ∉ keywords) (names : List String) (parent : Option String) :
    bindings parent (useTreeOf names last) = [last] := by
  induction names generalizing parent with
  | nil =>
    have noSelf : ¬ (last == "self") = true := by
      intro same
      rw [beq_iff_eq] at same
      subst same
      exact plain (by decide)
    rw [useTreeOf, word, bindings, if_neg noSelf]
  | cons n names ih => exact ih (some n)

theorem plainLeaf?_useTreeOf (names : List String) (last : String) : plainLeaf? (useTreeOf names last) = some last := by
  induction names with
  | nil => rfl
  | cons n names ih => exact ih

namespace PlainPath
variable (p : PlainPath)

@[simp] theorem useTree?_item : useTree? p.item = some (useTreeOf p.names p.last) := rfl

@[simp] theorem isUse_item : isUse p.item = true := rfl

@[simp] theorem references_item : references p.item = [] := rfl

end PlainPath

/-- A table in which each path is a plain one that ends in the name it is known by. -/
def Known.Plain (known : Known) : Prop :=
  ∀ root path, (root, path) ∈ known → ∃ p : PlainPath, p.last = root ∧ p.tree = path

/-- The names of segments without arguments that are joined by `::`. -/
def joinedNames? : Trees → Option (List String)
  | [.node .segment [.leaf (.ident n), .node .absent []]] => some [n]
  | .node .segment [.leaf (.ident n), .node .absent []] :: .leaf (.punct "::" false) :: segments =>
    (joinedNames? segments).map (n :: ·)
  | _ => none

/-- The path is a plain one that does not begin at the root and ends in the name. -/
def isPlainEntry : String × Tree → Bool
  | (root, .node .path segments) => (joinedNames? segments).any fun names =>
    names.getLast? == some root && names.dropLast.all (fun n => isUseWord [word n]) && !keywords.contains root
  | _ => false

theorem joinSegments_of_joinedNames? {segments : Trees} {names : List String} (h : joinedNames? segments = some names) :
    segments = joinSegments (names.map segmentOf) := by
  have some_ne_nil (segments : Trees) (names : List String) (h : joinedNames? segments = some names) : names ≠ [] := by
    unfold joinedNames? at h
    split at h
    · cases h
      exact List.cons_ne_nil _ _
    · obtain ⟨more, -, rfl⟩ := Option.map_eq_some_iff.mp h
      exact List.cons_ne_nil _ _
    · cases h
  fun_induction joinedNames? segments generalizing names with
  | case1 n =>
    cases h
    rfl
  | case2 n segments ih =>
    obtain ⟨more, found, rfl⟩ := Option.map_eq_some_iff.mp h
    obtain ⟨m, rest, rfl⟩ := List.exists_cons_of_ne_nil (some_ne_nil _ _ found)
    rw [ih found]
    rfl
  | case3 => cases h

theorem Known.plain_of_all {known : Known} (h : known.all isPlainEntry = true) : known.Plain := by
  intro root path mem
  have entry := List.all_eq_true.mp h _ mem
  unfold isPlainEntry at entry
  split at entry
  · rename_i root' segments same
    cases same
    obtain ⟨names, found, entry⟩ := (Option.any_eq_true _ _).mp entry
    rw [Bool.and_eq_true, Bool.and_eq_true, beq_iff_eq, List.all_eq_true] at entry
    obtain ⟨⟨last, lead⟩, plain⟩ := entry
    have plain' : root ∉ keywords := by
      rw [Bool.not_eq_true', Bool.eq_false_iff] at plain
      exact fun mem => plain (List.contains_iff_mem.mpr mem)
    refine ⟨⟨false, names.dropLast, root, lead, plain'⟩, rfl, ?_⟩
    have whole : names.dropLast ++ [root] = names := by
      obtain ⟨front, rfl⟩ := List.getLast?_eq_some_iff.mp last
      rw [List.dropLast_concat]
    rw [PlainPath.tree, whole, joinSegments_of_joinedNames? found]
    rfl
  · cases entry

end Retype.Imports
