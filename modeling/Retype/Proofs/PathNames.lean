import Retype.Proofs.TokenPaths

/-! The names that a file refers to, told by the places they stand in: a path of the code, wherever it is but in an
import, begins with its first name. -/

namespace Retype.Imports
open Retype.Code

/-- What is looked into for paths: all parts of a tree, but nothing in an import, and of a macro call and of an
attribute with unparsed arguments only the path that names them, of the setting of a field what is not its name. -/
def innerTrees : Tree → Trees
  | .leaf _ => []
  | .group _ body => body
  | .node (.item .use) _ => []
  | .node .metaList [path, .group _ _] => [path]
  | .node .macroBody (path :: _) => [path]
  | .node .fieldValue [attrs, .leaf (.ident _), _, value] => [attrs, value]
  | .node _ parts => parts

/-- The first tree is a part of the second one that is looked into for paths. -/
inductive Part (u : Tree) : Tree → Prop
  | self : Part u u
  | inner {t v : Tree} (mem : v ∈ innerTrees t) (within : Part u v) : Part u t

/-- The first of the segments has the name. -/
def Leads (n : String) (segments : Trees) : Prop := ∃ first rest, segments = first :: rest ∧ segmentName? first = some n

/-- The tree is, or holds unparsed, a path that begins with the name; in the body of a macro call what stands beside a
name has to tell. -/
inductive Names (p : Trees → Trees → Prop) (n : String) : Tree → Prop
  | path {parts : Trees} (leads : Leads n parts) : Names p n (.node .path parts)
  /-- The trait of a qualified path. -/
  | qualified {opening ty : Tree} {via : Trees} (leads : Leads n via) :
      Names p n (.node .qualified (opening :: ty :: word "as" :: via))
  /-- A field that is set to the variable of its name. -/
  | field {attrs colon value : Tree} (short : colon.isAbsent = true) :
      Names p n (.node .fieldValue [attrs, word n, colon, value])
  /-- A member of a list of derivations. -/
  | derived {path derivation : Tree} {d : Delim} {body paths : Trees} (derives : path.pathIdent? = some "derive")
      (parsed : parseAll (fun g => Parser.commaSeparated (Grammar.path g false)) body = some paths)
      (mem : derivation ∈ Trees.members paths) (leads : Leads n derivation.parts) :
      Names p n (.node .metaList [path, .group d body])
  /-- The body of a macro call. -/
  | tokens {path : Tree} {rest : Trees} (told : Stands p n [] (apartAll (Trees.raw rest))) :
      Names p n (.node .macroBody (path :: rest))

theorem Names.mono {p q : Trees → Trees → Prop} (within : ∀ before after, p before after → q before after) {n : String}
    {t : Tree} (h : Names p n t) : Names q n t := by
  cases h with
  | path leads => exact .path leads
  | qualified leads => exact .qualified leads
  | field short => exact .field short
  | derived derives parsed mem leads => exact .derived derives parsed mem leads
  | tokens told => exact .tokens (told.mono within)

theorem mem_firstName?_iff {n : String} {segments : Trees} : n ∈ firstName? segments ↔ Leads n segments := by
  cases segments with
  | nil => exact iff_of_false List.not_mem_nil (by rintro ⟨first, rest, ⟨⟩, -⟩)
  | cons first rest =>
    rw [firstName?, Option.mem_toList]
    constructor
    · exact fun named => ⟨first, rest, rfl, named⟩
    · rintro ⟨_, _, ⟨⟩, named⟩
      exact named

section Own
variable {p : Trees → Trees → Prop} {n : String}

theorem names_path_iff {parts : Trees} : Names p n (.node .path parts) ↔ n ∈ firstName? parts := by
  rw [mem_firstName?_iff]
  constructor
  · rintro ⟨⟩
    assumption
  · exact .path

theorem names_qualified_iff {parts : Trees} :
    Names p n (.node .qualified parts) ↔ n ∈ qualifierName? parts := by
  unfold qualifierName?
  split
  · rw [mem_firstName?_iff]
    constructor
    · rintro ⟨⟩
      assumption
    · exact .qualified
  · rename_i other
    refine iff_of_false ?_ List.not_mem_nil
    rintro ⟨⟩
    exact other _ _ _ rfl

theorem names_metaList_iff {path : Tree} {d : Delim} {body : Trees} :
    Names p n (.node .metaList [path, .group d body]) ↔
      n ∈ (if path.pathIdent? == some "derive" then derived (Tree.group d body).body else []) := by
  have derived_iff : n ∈ derived body ↔ ∃ paths p,
      parseAll (fun g => Parser.commaSeparated (Grammar.path g false)) body = some paths ∧
        p ∈ Trees.members paths ∧ Leads n p.parts := by
    unfold derived
    split
    · rename_i paths parsed
      rw [List.mem_flatMap]
      simp only [mem_firstName?_iff, parsed, Option.some.injEq]
      constructor
      · rintro ⟨p, mem, leads⟩
        exact ⟨paths, p, rfl, mem, leads⟩
      · rintro ⟨_, p, rfl, mem, leads⟩
        exact ⟨p, mem, leads⟩
    · rename_i unparsed
      refine iff_of_false List.not_mem_nil ?_
      rintro ⟨paths, p, parsed, -⟩
      cases unparsed.symm.trans parsed
  have body_eq : (Tree.group d body).body = body := rfl
  rw [body_eq]
  split
  · rename_i derives
    rw [derived_iff]
    constructor
    · intro h
      cases h with
      | derived derives parsed mem leads => exact ⟨_, _, parsed, mem, leads⟩
    · rintro ⟨paths, p, parsed, mem, leads⟩
      exact .derived (beq_iff_eq.mp derives) parsed mem leads
  · rename_i other
    refine iff_of_false ?_ List.not_mem_nil
    intro h
    cases h with
    | derived derives => exact other (beq_iff_eq.mpr derives)

theorem names_field_iff {m : String} {attrs colon value : Tree} :
    Names p n (.node .fieldValue [attrs, .leaf (.ident m), colon, value]) ↔
      n ∈ (if colon.isAbsent then [m] else []) := by
  constructor
  · intro h
    cases h with
    | field short => rw [if_pos short]; exact List.mem_singleton_self n
  · intro mem
    split at mem
    · rename_i short
      rw [List.mem_singleton.mp mem]
      exact .field short
    · cases mem

end Own

theorem names_macroBody_iff {n : String} {path : Tree} {rest : Trees} :
    Names IsTaken n (.node .macroBody (path :: rest)) ↔ n ∈ scan none (Trees.raw rest) := by
  rw [mem_scan_none_iff]
  constructor
  · rintro ⟨⟩
    assumption
  · exact .tokens

/-- The names that a tree refers to are its own and those of what it holds. -/
theorem mem_references_step (n : String) (t : Tree) :
    n ∈ references t ↔ Names IsTaken n t ∨ n ∈ referencesIn (innerTrees t) := by
  unfold references
  split
  · exact iff_of_false List.not_mem_nil (fun h => h.elim nofun nofun)
  · exact ⟨.inr, fun h => h.resolve_left (by rintro ⟨⟩)⟩
  · exact iff_of_false List.not_mem_nil (fun h => h.elim nofun nofun)
  · rw [List.mem_append, names_path_iff]; rfl
  · rw [List.mem_append, names_qualified_iff]; rfl
  · rw [List.mem_append, names_metaList_iff, innerTrees, referencesIn, referencesIn, List.append_nil, or_comm]
  · rw [List.mem_append, names_macroBody_iff, innerTrees, referencesIn, referencesIn, List.append_nil, or_comm]
  · rw [List.mem_append, List.mem_append, names_field_iff, innerTrees, referencesIn, referencesIn, referencesIn,
      List.append_nil, List.mem_append, or_assoc, or_left_comm]
  · rename_i k parts noUse noPath noQualified noDerive noMacro noField
    have unnamed : ¬ Names IsTaken n (.node k parts) := by
      intro h
      cases h with
      | path => exact noPath rfl
      | qualified => exact noQualified rfl
      | field => exact noField _ _ _ _ rfl rfl
      | derived => exact noDerive _ _ _ rfl rfl
      | tokens => exact noMacro _ _ rfl rfl
    have inner : innerTrees (.node k parts) = parts := by
      unfold innerTrees
      split <;> rename_i same <;> cases same
      · exact (noUse rfl).elim
      · exact (noDerive _ _ _ rfl rfl).elim
      · exact (noMacro _ _ rfl rfl).elim
      · exact (noField _ _ _ _ rfl rfl).elim
      · rfl
    rw [inner]
    exact ⟨.inr, fun h => h.resolve_left unnamed⟩

theorem mem_referencesIn_iff (n : String) (ts : Trees) : n ∈ referencesIn ts ↔ ∃ t ∈ ts, n ∈ references t := by
  induction ts with
  | nil => simp [referencesIn]
  | cons t ts ih => simp only [referencesIn, List.mem_append, ih, List.mem_cons, exists_eq_or_imp]

theorem sizeOf_innerTrees {t v : Tree} (mem : v ∈ innerTrees t) : sizeOf v < sizeOf t := by
  have of_mem {k : Kind} {parts : Trees} (mem : v ∈ parts) : sizeOf v < sizeOf (.node k parts : Tree) := by
    have := List.sizeOf_lt_of_mem mem
    simp only [Tree.node.sizeOf_spec]
    omega
  unfold innerTrees at mem
  split at mem
  · cases mem
  · have := List.sizeOf_lt_of_mem mem
    simp only [Tree.group.sizeOf_spec]
    omega
  · cases mem
  · exact of_mem (List.mem_cons.mpr (.inl (List.mem_singleton.mp mem)))
  · exact of_mem (List.mem_cons.mpr (.inl (List.mem_singleton.mp mem)))
  · obtain rfl | rfl : v = _ ∨ v = _ := by simpa only [List.mem_cons, List.not_mem_nil, or_false] using mem
    · exact of_mem List.mem_cons_self
    · exact of_mem (List.mem_cons_of_mem _ (List.mem_cons_of_mem _ (List.mem_cons_of_mem _ List.mem_cons_self)))
  · exact of_mem mem

theorem mem_references_iff (n : String) (t : Tree) : n ∈ references t ↔ ∃ u, Part u t ∧ Names IsTaken n u := by
  rw [mem_references_step, mem_referencesIn_iff]
  constructor
  · rintro (named | ⟨v, mem, refers⟩)
    · exact ⟨t, .self, named⟩
    · have smaller := sizeOf_innerTrees mem
      obtain ⟨u, within, named⟩ := (mem_references_iff n v).mp refers
      exact ⟨u, .inner mem within, named⟩
  · rintro ⟨u, part, named⟩
    induction part with
    | self => exact .inl named
    | inner mem _ ih =>
      refine .inr ⟨_, mem, ?_⟩
      rw [mem_references_step, mem_referencesIn_iff]
      exact ih
termination_by sizeOf t

end Retype.Imports
