import Retype.Proofs.ImportFixing

/-! Imports that a fix drops.  What such an import brings, no path begins with that stands in the code, its attributes,
types or patterns, or that `::` tells in the body of a macro call.  What else may need an import is not looked at: the
paths of other imports, other files, names alone in the body of a macro call, the arguments of most attributes, and
code without a form in the tree. -/

namespace Retype.Imports
open Retype.Code

/-- An import of one known name under its own name, with which no path begins; in the bodies of macro calls the trees
beside a name tell. -/
def IsSpare (p : Trees → Trees → Prop) (known : Known) (attrs items : Trees) (item : Tree) : Prop :=
  ∃ tree leaf, useTree? item = some tree ∧ plainLeaf? tree = some leaf ∧ known.Lists leaf ∧
    ∀ t ∈ attrs ++ items, ∀ u, Part u t → ¬ Names p leaf u

theorem isKept_eq_false_iff_isSpare {known : Known} {attrs items : Trees} {item : Tree} :
    isKept known attrs items item = false ↔ IsSpare IsTaken known attrs items item := by
  have unnamed (leaf : String) : leaf ∉ referencesIn (attrs ++ items) ↔
      ∀ t ∈ attrs ++ items, ∀ u, Part u t → ¬ Names IsTaken leaf u := by
    simp only [mem_referencesIn_iff, mem_references_iff, not_exists, not_and]
  simp only [isKept_eq_false_iff, IsSpare, unnamed]

theorem IsSpare.mono {p q : Trees → Trees → Prop} (within : ∀ before after, p before after → q before after)
    {known : Known} {attrs items : Trees} {item : Tree} (h : IsSpare q known attrs items item) :
    IsSpare p known attrs items item := by
  obtain ⟨tree, leaf, uses, plain, listed, unnamed⟩ := h
  exact ⟨tree, leaf, uses, plain, listed, fun t mem u part named => unnamed t mem u part (named.mono within)⟩

/-- A fix adds imports of known paths in one place and drops spare imports; everything else stays as it is.  A spare one
whose name stands in no macro body is dropped for certain. -/
theorem only_spare_imports_dropped {known : Known} {attrs items : Trees} {fixed : Fixed}
    (fixes : fix? known attrs items = some fixed) : ∃ front added back, fixed.items = front ++ added ++ back ∧
    (∀ t ∈ added, ∃ root path, (root, path) ∈ known ∧ importOf? path = some t) ∧
    ∃ kept : Tree → Bool, front ++ back = items.filter kept ∧
      ∀ item ∈ items, (kept item = false → IsSpare StartsPath known attrs items item) ∧
        (IsSpare (fun _ _ => True) known attrs items item → kept item = false) := by
  obtain ⟨new, made, rfl⟩ := fix?_eq_some.mp fixes
  obtain ⟨front, back, whole, inserted⟩ := exists_insertAfterUses new (items.filter (isKept known attrs items))
  refine ⟨front, new, back, inserted, ?added, isKept known attrs items, whole.symm, fun item _ => ⟨?dropped, ?spare⟩⟩
  case added =>
    intro t mem
    obtain ⟨⟨root, path⟩, missed, added⟩ := (mem_of_mapM made).mp mem
    exact ⟨root, path, (mem_missing_iff.mp missed).1, added⟩
  case dropped =>
    intro dropped
    exact (isKept_eq_false_iff_isSpare.mp dropped).mono StartsPath.isTaken
  case spare =>
    intro spare
    exact isKept_eq_false_iff_isSpare.mpr (spare.mono fun _ _ _ => trivial)

theorem not_mem_fix {known : Known} {attrs items : Trees} {item : Tree}
    (unused : isUnused known (referencesIn (attrs ++ items)) item = true)
    (complete : (missing known attrs items).length = 0) :
    ∃ fixed, fix? known attrs items = some fixed ∧ item ∉ fixed.items := by
  have nothing := List.eq_nil_of_length_eq_zero complete
  have fixes := fix?_eq_some.mpr ⟨[], by rw [nothing]; rfl, rfl⟩
  refine ⟨_, fixes, ?_⟩
  rw [mem_items_iff fixes, nothing, unused]
  rintro (⟨-, kept⟩ | ⟨root, path, missed, -⟩)
  · cases kept
  · cases missed

/-- An import of names joined by `::`. -/
def useOf (vis : Tree) (names : List String) (last : String) : Tree :=
  .node (.item .use) [noAttrs, vis, word "use", Tree.absent, useTreeOf names last, op ";"]

/-- `use std::time::Duration;` -/
def durationUse : Tree := useOf Tree.absent ["std", "time"] "Duration"

theorem only_spare_imports_dropped_duration : (∃ fixed, fix? fourKnown [] [durationUse] = some fixed ∧
    durationUse ∉ fixed.items) ∧ IsSpare StartsPath fourKnown [] [durationUse] durationUse := by
  obtain ⟨fixed, fixes, dropped⟩ : ∃ fixed, fix? fourKnown [] [durationUse] = some fixed ∧ durationUse ∉ fixed.items :=
    not_mem_fix (by decide +kernel) (by decide +kernel)
  obtain ⟨front, added, back, whole, -, kept, filtered, rule⟩ := only_spare_imports_dropped fixes
  refine ⟨⟨fixed, fixes, dropped⟩, (rule _ List.mem_cons_self).1 ?_⟩
  rw [Bool.eq_false_iff]
  intro stays
  have mem : durationUse ∈ front ++ back := by
    rw [filtered]
    exact List.mem_filter.mpr ⟨List.mem_cons_self, stays⟩
  rw [whole] at dropped
  rcases List.mem_append.mp mem with ahead | behind
  · exact dropped (List.mem_append_left _ (List.mem_append_left _ ahead))
  · exact dropped (List.mem_append_right _ behind)

/-- Other files may use what the import brings. -/
def isPublic : Tree → Bool
  | .node (.item .use) (_ :: vis :: _) => vis.isPresent
  | _ => false

/-- The name that a path of the import begins with. -/
inductive Roots (n : String) : Tree → Prop
  | head {kind : UseKind} {rest : Trees} : Roots n (.node (.useTree kind) (word n :: rest))
  | member {d : Delim} {t : Tree} {trees : Trees} (mem : t ∈ trees) (root : Roots n t) :
      Roots n (.node (.useTree .group) [.group d trees])

/-- Anywhere but after `::` a name may begin a path. -/
def MayStart (before _after : Trees) : Prop := ¬ Separated before

/-- A path of the tree begins with the name, whether a fix looks at it or not. -/
inductive Begins (n : String) : Tree → Prop
  | names {t : Tree} (named : Names MayStart n t) : Begins n t
  | imported {attrs vis keyword tree semi : Tree} (root : Roots n tree) :
      Begins n (.node (.item .use) [attrs, vis, keyword, Tree.absent, tree, semi])
  /-- A derivation under a condition. -/
  | conditional {path : Tree} {d e : Delim} {before derivations after : Trees} (cfg : path.pathIdent? = some "cfg_attr")
      (derived : Names MayStart n (.node .metaList [pathOf "derive", .group e derivations])) :
      Begins n (.node .metaList [path, .group d (before ++ word "derive" :: .group e derivations :: after)])
  /-- An item that is kept as it stands. -/
  | verbatim {ts : Trees} (told : Stands MayStart n [] (apartAll (Trees.raw ts))) :
      Begins n (.node (.item .verbatim) ts)

/-- Nothing that is dropped is for other files, or begins a path of the rest of the file. -/
def KeepsNeeded (known : Known) (attrs items : Trees) : Prop :=
  ∀ fixed, fix? known attrs items = some fixed → ∀ item ∈ items, item ∉ fixed.items → isPublic item = false ∧
    ∀ tree leaf, useTree? item = some tree → plainLeaf? tree = some leaf →
      ∀ t ∈ attrs ++ items, t ≠ item → ∀ u, Part u t → ¬ Begins leaf u

theorem not_keepsNeeded {known : Known} {attrs items : Trees} {item tree t u : Tree} {leaf : String}
    (mem : item ∈ items) (dropped : ∃ fixed, fix? known attrs items = some fixed ∧ item ∉ fixed.items)
    (uses : useTree? item = some tree) (plain : plainLeaf? tree = some leaf) (other : t ∈ items) (ne : t ≠ item)
    (part : Part u t) (begins : Begins leaf u) : ¬ KeepsNeeded known attrs items := by
  obtain ⟨fixed, fixes, gone⟩ := dropped
  intro keeps
  exact (keeps fixed fixes item mem gone).2 tree leaf uses plain t (List.mem_append_right attrs other) ne u part begins

/-- `#[cfg_attr(test, derive(Serialize))] struct Tag;` -/
def conditionalDerivation : Tree :=
  .node (.item .struct) [
    .node .attrs [attrOf "cfg_attr" [word "test", op ",", word "derive", .group .paren [word "Serialize"]]], Tree.absent,
    word "struct", word "Tag", Tree.absent, Tree.absent, Tree.absent, Tree.absent, op ";"]

/-- `show! { HashMap }` -/
def macroOfName : Tree :=
  .node (.item .macroCall)
    [noAttrs, .node .macroBody [pathOf "show", op "!", .group .brace [word "HashMap"]], Tree.absent]

/-- `fn wait(d: Duration);` -/
def declaredWait : Tree :=
  .node (.item .verbatim) [word "fn", word "wait", .group .paren [word "d", op ":", word "Duration"], op ";"]

/-- Imports that are dropped although they are for other files, or although another import, a derivation under a
condition, a name alone in the body of a macro call or a declaration kept as it stands begins a path with what they
bring. -/
theorem needed_imports_dropped :
    ¬ KeepsNeeded fourKnown [] [useOf pubVis ["std", "time"] "Duration"] ∧
    ¬ KeepsNeeded fourKnown []
      [useOf Tree.absent ["hemmer_provider_sdk"] "pointer", useOf Tree.absent ["pointer"] "Pointer"] ∧
    ¬ KeepsNeeded fourKnown [] [useOf Tree.absent ["serde"] "Serialize", conditionalDerivation] ∧
    ¬ KeepsNeeded fourKnown [] [useOf Tree.absent ["std", "collections"] "HashMap", macroOfName] ∧
    ¬ KeepsNeeded fourKnown [] [durationUse, declaredWait] := by
  have unseparated : MayStart [] [] := by
    rintro ⟨joint, rest, ⟨⟩⟩
  refine ⟨?visibility, ?imported, ?conditional, ?token, ?declared⟩
  case visibility =>
    obtain ⟨fixed, fixes, dropped⟩ : ∃ fixed, fix? fourKnown [] [useOf pubVis ["std", "time"] "Duration"] = some fixed ∧
        useOf pubVis ["std", "time"] "Duration" ∉ fixed.items :=
      not_mem_fix (by decide +kernel) (by decide +kernel)
    intro keeps
    have hidden := (keeps fixed fixes _ List.mem_cons_self dropped).1
    cases hidden
  case imported =>
    refine not_keepsNeeded (t := useOf Tree.absent ["pointer"] "Pointer") List.mem_cons_self
      (not_mem_fix (by decide +kernel) (by decide +kernel)) rfl rfl ?_ ?_ .self (.imported .head)
    · exact List.mem_cons_of_mem _ List.mem_cons_self
    · intro same
      exact absurd (congrArg Tree.text same) (by decide +kernel)
  case conditional =>
    have derived : Names MayStart "Serialize" (.node .metaList [pathOf "derive", .group .paren [word "Serialize"]]) :=
      names_metaList_iff.mpr (by decide +kernel)
    have begins : Begins "Serialize" (.node .metaList [pathOf "cfg_attr",
        .group .paren ([word "test", op ","] ++ word "derive" :: .group .paren [word "Serialize"] :: [])]) :=
      .conditional rfl derived
    refine not_keepsNeeded (t := conditionalDerivation) List.mem_cons_self
      (not_mem_fix (by decide +kernel) (by decide +kernel)) rfl rfl (List.mem_cons_of_mem _ List.mem_cons_self) nofun
      ?_ begins
    exact .inner List.mem_cons_self (.inner List.mem_cons_self (.inner (List.mem_cons_of_mem _ List.mem_cons_self)
      (.inner List.mem_cons_self .self)))
  case token =>
    refine not_keepsNeeded (t := macroOfName) List.mem_cons_self
      (not_mem_fix (by decide +kernel) (by decide +kernel)) rfl rfl (List.mem_cons_of_mem _ List.mem_cons_self) nofun
      (.inner (List.mem_cons_of_mem _ List.mem_cons_self) .self) (.names (.tokens ?_))
    exact .later (.inside (.here unseparated))
  case declared =>
    have separated : ¬ Separated [op ":", word "d"] := by
      rintro ⟨joint, rest, same⟩
      cases same
    refine not_keepsNeeded (t := declaredWait) List.mem_cons_self
      (not_mem_fix (by decide +kernel) (by decide +kernel)) rfl rfl (List.mem_cons_of_mem _ List.mem_cons_self) nofun
      .self (.verbatim ?_)
    exact .later (.later (.inside (.later (.later (.here separated)))))

end Retype.Imports
