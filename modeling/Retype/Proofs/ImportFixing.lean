import Retype.Config
import Retype.Proofs.Answers
import Retype.Proofs.PathNames
import Retype.Proofs.UseItems

/-! Fixing the imports of a file.  What the paths of the code begin with does not depend on its imports, so that both
sides of a fix, the imports that go and those that come, answer to the same names before and after it; and neither side
undoes the other, since what goes brings only a name that nothing refers to. -/

namespace Retype.Imports
open Retype.Code

/-- The name is one of the table's. -/
def Known.Lists (known : Known) (n : String) : Prop := n ∈ known.map (·.1)

/-- An import of the file brings the name, or an item defines it. -/
def IsBound (items : Trees) (n : String) : Prop :=
  (∃ item ∈ items, ∃ tree, useTree? item = some tree ∧ n ∈ bindings none tree) ∨
    ∃ item ∈ items, isUse item = false ∧ itemName? item = some n

/-- The known names that a file refers to and that are not bound in it, with their paths. -/
def missing (known : Known) (attrs items : Trees) : Known :=
  known.filter fun (root, _) =>
    (referencesIn (attrs ++ items)).contains root &&
      !((items.filterMap useTree?).flatMap (bindings none)).contains root &&
      !((items.filter fun t => !isUse t).filterMap itemName?).contains root

def isKept (known : Known) (attrs items : Trees) (item : Tree) : Bool :=
  !isUnused known (referencesIn (attrs ++ items)) item

theorem fix?_eq_some {known : Known} {attrs items : Trees} {fixed : Fixed} : fix? known attrs items = some fixed ↔
    ∃ added, (missing known attrs items).mapM (fun e => importOf? e.2) = some added ∧
      fixed = ⟨(missing known attrs items).length + (items.length - (items.filter (isKept known attrs items)).length),
        insertAfterUses added (items.filter (isKept known attrs items))⟩ := by
  rw [fix?, Option.bind_eq_bind, Option.bind_eq_some_iff]
  exact exists_congr fun added => and_congr_right fun _ => Option.some_inj.trans eq_comm

theorem isUnused_iff {known : Known} {referenced : List String} {item : Tree} :
    isUnused known referenced item = true ↔ ∃ tree leaf, useTree? item = some tree ∧ plainLeaf? tree = some leaf ∧
      known.Lists leaf ∧ leaf ∉ referenced := by
  rw [isUnused, Option.any_eq_true]
  simp only [Option.bind_eq_some_iff, Bool.and_eq_true, Table.isSome_get?, List.contains_iff_mem, Bool.not_eq_true',
    Bool.eq_false_iff, ne_eq, Known.Lists]
  constructor
  · rintro ⟨leaf, ⟨tree, uses, plain⟩, listed, unreferenced⟩
    exact ⟨tree, leaf, uses, plain, listed, unreferenced⟩
  · rintro ⟨tree, leaf, uses, plain, listed, unreferenced⟩
    exact ⟨leaf, ⟨tree, uses, plain⟩, listed, unreferenced⟩

theorem isKept_eq_false_iff {known : Known} {attrs items : Trees} {item : Tree} :
    isKept known attrs items item = false ↔ ∃ tree leaf, useTree? item = some tree ∧ plainLeaf? tree = some leaf ∧
      known.Lists leaf ∧ leaf ∉ referencesIn (attrs ++ items) := by
  rw [isKept, Bool.not_eq_false']
  exact isUnused_iff

theorem mem_missing_iff {known : Known} {attrs items : Trees} {root : String} {path : Tree} :
    (root, path) ∈ missing known attrs items ↔
      (root, path) ∈ known ∧ root ∈ referencesIn (attrs ++ items) ∧ ¬ IsBound items root := by
  have brought : root ∈ (items.filterMap useTree?).flatMap (bindings none) ↔
      ∃ item ∈ items, ∃ tree, useTree? item = some tree ∧ root ∈ bindings none tree := by
    simp only [List.mem_flatMap, List.mem_filterMap]
    constructor
    · rintro ⟨tree, ⟨item, mem, uses⟩, brings⟩
      exact ⟨item, mem, tree, uses, brings⟩
    · rintro ⟨item, mem, tree, uses, brings⟩
      exact ⟨tree, ⟨item, mem, uses⟩, brings⟩
  have defined : root ∈ (items.filter fun t => !isUse t).filterMap itemName? ↔
      ∃ item ∈ items, isUse item = false ∧ itemName? item = some root := by
    simp only [List.mem_filterMap, List.mem_filter, Bool.not_eq_true', and_assoc]
  rw [missing, List.mem_filter, IsBound, ← brought, ← defined]
  simp only [Bool.and_eq_true, Bool.not_eq_true', Bool.eq_false_iff, ne_eq, List.contains_iff_mem, not_or, and_assoc]

theorem exists_insertAfterUses (new items : Trees) :
    ∃ front back, items = front ++ back ∧ insertAfterUses new items = front ++ new ++ back := by
  rw [insertAfterUses]
  split
  · exact ⟨_, _, (List.take_append_drop _ _).symm, rfl⟩
  · exact ⟨[], items, rfl, rfl⟩

theorem insertAfterUses_nil (items : Trees) : insertAfterUses [] items = items := by
  obtain ⟨front, back, rfl, inserted⟩ := exists_insertAfterUses [] items
  rw [inserted, List.append_nil]

theorem mem_insertAfterUses_iff {new items : Trees} {t : Tree} :
    t ∈ insertAfterUses new items ↔ t ∈ items ∨ t ∈ new := by
  obtain ⟨front, back, rfl, inserted⟩ := exists_insertAfterUses new items
  rw [inserted, List.mem_append, List.mem_append, List.mem_append, or_right_comm]

theorem mem_items_iff {known : Known} {attrs items : Trees} {fixed : Fixed} (fixes : fix? known attrs items = some fixed)
    {t : Tree} : t ∈ fixed.items ↔ (t ∈ items ∧ isUnused known (referencesIn (attrs ++ items)) t = false) ∨
      ∃ root path, (root, path) ∈ missing known attrs items ∧ importOf? path = some t := by
  obtain ⟨added, made, rfl⟩ := fix?_eq_some.mp fixes
  rw [mem_insertAfterUses_iff, List.mem_filter, isKept, Bool.not_eq_true', mem_of_mapM made, Prod.exists]

theorem isUse_of_useTree? {item tree : Tree} (uses : useTree? item = some tree) : isUse item = true := by
  unfold useTree? at uses
  split at uses
  · rfl
  · cases uses

theorem references_of_useTree? {item tree : Tree} (uses : useTree? item = some tree) : references item = [] := by
  unfold useTree? at uses
  split at uses
  · rfl
  · cases uses

theorem eq_of_mem_bindings {tree : Tree} {leaf : String} (plain : plainLeaf? tree = some leaf) (noSelf : leaf ≠ "self")
    {parent : Option String} {n : String} (brings : n ∈ bindings parent tree) : n = leaf := by
  fun_induction plainLeaf? tree generalizing parent with
  | case1 head colons tree ih =>
    unfold bindings at brings
    split at brings
    · rename_i same
      cases same
      exact ih plain brings
    · rename_i same; cases same
    · rename_i same; cases same
    · rename_i same; cases same
    · cases brings
  | case2 m =>
    cases plain
    rw [bindings, if_neg (by simpa using noSelf), List.mem_singleton] at brings
    exact brings
  | case3 => cases plain

section Plain
variable {known : Known} (plain : known.Plain)
include plain

theorem Known.Plain.ne_self {n : String} (listed : known.Lists n) : n ≠ "self" := by
  obtain ⟨⟨root, path⟩, mem, rfl⟩ := List.mem_map.mp listed
  obtain ⟨p, rfl, -⟩ := plain root path mem
  intro (same : p.last = "self")
  have key : "self" ∈ Parser.keywords := by decide
  rw [← same] at key
  exact p.last_plain key

theorem Known.Plain.importOf? {root : String} {path : Tree} (mem : (root, path) ∈ known) :
    ∃ p : PlainPath, p.last = root ∧ importOf? path = some p.item := by
  obtain ⟨p, rfl, rfl⟩ := plain root path mem
  exact ⟨p, rfl, importOf?_tree p⟩

theorem Known.Plain.import_eq {root : String} {path t : Tree} (mem : (root, path) ∈ known)
    (made : Imports.importOf? path = some t) : ∃ p : PlainPath, p.last = root ∧ t = p.item := by
  obtain ⟨p, last, made'⟩ := plain.importOf? mem
  exact ⟨p, last, Option.some.inj (made.symm.trans made')⟩

theorem Known.Plain.fix? (attrs items : Trees) : ∃ fixed, fix? known attrs items = some fixed := by
  have made {es : Known} (within : ∀ e ∈ es, e ∈ known) :
      ∃ added, es.mapM (fun e => Imports.importOf? e.2) = some added := by
    induction es with
    | nil => exact ⟨[], rfl⟩
    | cons e es ih =>
      obtain ⟨p, -, head⟩ := plain.importOf? (within e List.mem_cons_self)
      obtain ⟨added, tail⟩ := ih fun e mem => within e (List.mem_cons_of_mem _ mem)
      refine ⟨p.item :: added, ?_⟩
      rw [List.mapM_cons, head, tail]
      rfl
  obtain ⟨added, made⟩ := made fun e (mem : e ∈ missing known attrs items) => (mem_missing_iff.mp mem).1
  exact ⟨_, fix?_eq_some.mpr ⟨added, made, rfl⟩⟩

variable {attrs items : Trees} {fixed : Fixed} (fixes : Imports.fix? known attrs items = some fixed)
include fixes

theorem mem_references_fix (n : String) :
    n ∈ referencesIn (attrs ++ fixed.items) ↔ n ∈ referencesIn (attrs ++ items) := by
  simp only [mem_referencesIn_iff, List.mem_append, mem_items_iff fixes]
  constructor
  · rintro ⟨t, mem | ⟨mem, -⟩ | ⟨root, path, missed, made⟩, refers⟩
    · exact ⟨t, .inl mem, refers⟩
    · exact ⟨t, .inr mem, refers⟩
    · obtain ⟨p, -, rfl⟩ := plain.import_eq (mem_missing_iff.mp missed).1 made
      rw [p.references_item] at refers
      cases refers
  · rintro ⟨t, mem | mem, refers⟩
    · exact ⟨t, .inl mem, refers⟩
    · refine ⟨t, .inr (.inl ⟨mem, ?_⟩), refers⟩
      rw [Bool.eq_false_iff]
      intro unused
      obtain ⟨tree, leaf, uses, -⟩ := isUnused_iff.mp unused
      rw [references_of_useTree? uses] at refers
      cases refers

theorem IsBound.fix {n : String} (refers : n ∈ referencesIn (attrs ++ items))
    (bound : IsBound items n) : IsBound fixed.items n := by
  rcases bound with ⟨item, mem, tree, uses, brings⟩ | ⟨item, mem, noUse, name⟩
  · refine .inl ⟨item, (mem_items_iff fixes).mpr (.inl ⟨mem, ?_⟩), tree, uses, brings⟩
    rw [Bool.eq_false_iff]
    intro unused
    obtain ⟨tree', leaf, uses', single, listed', unreferenced⟩ := isUnused_iff.mp unused
    obtain rfl : tree = tree' := Option.some.inj (uses.symm.trans uses')
    obtain rfl : n = leaf := eq_of_mem_bindings single (plain.ne_self listed') brings
    exact unreferenced refers
  · refine .inr ⟨item, (mem_items_iff fixes).mpr (.inl ⟨mem, ?_⟩), noUse, name⟩
    rw [Bool.eq_false_iff]
    intro unused
    obtain ⟨tree, leaf, uses, -⟩ := isUnused_iff.mp unused
    rw [isUse_of_useTree? uses] at noUse
    cases noUse

theorem isBound_fix {n : String} (listed : known.Lists n) (refers : n ∈ referencesIn (attrs ++ items)) :
    IsBound fixed.items n := by
  by_cases bound : IsBound items n
  · exact bound.fix plain fixes refers
  · obtain ⟨⟨root, path⟩, mem, rfl⟩ := List.mem_map.mp listed
    have missed := mem_missing_iff.mpr ⟨mem, refers, bound⟩
    obtain ⟨p, last, made⟩ := plain.importOf? mem
    refine .inl ⟨p.item, (mem_items_iff fixes).mpr (.inr ⟨root, path, missed, made⟩), _, p.useTree?_item, ?_⟩
    rw [bindings_useTreeOf p.last_plain, List.mem_singleton, last]

theorem isBound_fix_iff {n : String} (listed : known.Lists n) : IsBound fixed.items n ↔
    n ∈ referencesIn (attrs ++ items) ∨ IsBound (items.filter (isKept known attrs items)) n := by
  have stays {t : Tree} : t ∈ items.filter (isKept known attrs items) ↔
      t ∈ items ∧ isUnused known (referencesIn (attrs ++ items)) t = false := by
    rw [List.mem_filter, isKept, Bool.not_eq_true']
  constructor
  · rintro (⟨item, mem, tree, uses, brings⟩ | ⟨item, mem, noUse, name⟩)
    · rcases (mem_items_iff fixes).mp mem with kept | ⟨root, path, missed, made⟩
      · exact .inr (.inl ⟨item, stays.mpr kept, tree, uses, brings⟩)
      · obtain ⟨entry, refers, -⟩ := mem_missing_iff.mp missed
        obtain ⟨p, rfl, rfl⟩ := plain.import_eq entry made
        rw [p.useTree?_item] at uses
        cases uses
        rw [bindings_useTreeOf p.last_plain, List.mem_singleton] at brings
        exact .inl (brings ▸ refers)
    · rcases (mem_items_iff fixes).mp mem with kept | ⟨root, path, missed, made⟩
      · exact .inr (.inr ⟨item, stays.mpr kept, noUse, name⟩)
      · obtain ⟨p, -, rfl⟩ := plain.import_eq (mem_missing_iff.mp missed).1 made
        rw [p.isUse_item] at noUse
        cases noUse
  · rintro (refers | ⟨item, mem, tree, uses, brings⟩ | ⟨item, mem, noUse, name⟩)
    · exact isBound_fix plain fixes listed refers
    · exact .inl ⟨item, (mem_items_iff fixes).mpr (.inl (stays.mp mem)), tree, uses, brings⟩
    · exact .inr ⟨item, (mem_items_iff fixes).mpr (.inl (stays.mp mem)), noUse, name⟩

theorem isKept_fix {t : Tree} (mem : t ∈ fixed.items) : isKept known attrs fixed.items t = true := by
  rw [← Bool.not_eq_false]
  intro gone
  obtain ⟨tree, leaf, uses, single, listed, unreferenced⟩ := isKept_eq_false_iff.mp gone
  rw [mem_references_fix plain fixes] at unreferenced
  rcases (mem_items_iff fixes).mp mem with ⟨-, used⟩ | ⟨root, path, missed, made⟩
  · have unused := isUnused_iff.mpr ⟨tree, leaf, uses, single, listed, unreferenced⟩
    rw [used] at unused
    cases unused
  · obtain ⟨entry, refers, -⟩ := mem_missing_iff.mp missed
    obtain ⟨p, rfl, rfl⟩ := plain.import_eq entry made
    rw [p.useTree?_item] at uses
    cases uses
    rw [plainLeaf?_useTreeOf] at single
    cases single
    exact unreferenced refers

theorem fix?_fixed : fix? known attrs fixed.items = some ⟨0, fixed.items⟩ := by
  have noneMissing : missing known attrs fixed.items = [] := by
    rw [List.eq_nil_iff_forall_not_mem]
    rintro ⟨root, path⟩ missed
    obtain ⟨mem, refers, unbound⟩ := mem_missing_iff.mp missed
    rw [mem_references_fix plain fixes] at refers
    exact unbound (isBound_fix plain fixes (List.mem_map.mpr ⟨_, mem, rfl⟩) refers)
  have allKept : fixed.items.filter (isKept known attrs fixed.items) = fixed.items :=
    List.filter_eq_self.mpr fun t mem => isKept_fix plain fixes mem
  refine fix?_eq_some.mpr ⟨[], ?_, ?_⟩
  · rw [noneMissing, List.mapM_nil]
    rfl
  · rw [noneMissing, allKept, insertAfterUses_nil, List.length_nil, Nat.sub_self]

end Plain

/-- What a fix of a file makes of it. -/
structure Fixes (known : Known) (attrs items : Trees) (fixed : Fixed) : Prop where
  /-- Imports are no references. -/
  references : ∀ n, n ∈ referencesIn (attrs ++ fixed.items) ↔ n ∈ referencesIn (attrs ++ items)
  /-- A known name that the file refers to is bound. -/
  bound : ∀ n, known.Lists n → n ∈ referencesIn (attrs ++ fixed.items) → IsBound fixed.items n
  /-- A plain import of a known name is there for a reference. -/
  used : ∀ item ∈ fixed.items, ∀ tree leaf, useTree? item = some tree → plainLeaf? tree = some leaf → known.Lists leaf →
    leaf ∈ referencesIn (attrs ++ fixed.items)
  /-- What goes is a plain import of a known name that nothing refers to. -/
  dropped : ∀ item, isKept known attrs items item = false ↔ ∃ tree leaf, useTree? item = some tree ∧
    plainLeaf? tree = some leaf ∧ known.Lists leaf ∧ leaf ∉ referencesIn (attrs ++ items)
  /-- The other items stay as they are, in their order, and each change is one import. -/
  others : ∃ front added back, fixed.items = front ++ added ++ back ∧
    front ++ back = items.filter (isKept known attrs items) ∧
    (missing known attrs items).mapM (fun e => importOf? e.2) = some added ∧
    fixed.changes = added.length + (items.length - (front ++ back).length)
  /-- There is nothing left to fix. -/
  again : fix? known attrs fixed.items = some ⟨0, fixed.items⟩

theorem fixes_of_plain {known : Known} (plain : known.Plain) {attrs items : Trees} {fixed : Fixed}
    (fixes : fix? known attrs items = some fixed) : Fixes known attrs items fixed where
  references := mem_references_fix plain fixes
  bound n listed refers := isBound_fix plain fixes listed ((mem_references_fix plain fixes n).mp refers)
  used item mem tree leaf uses single listed := by
    refine Classical.byContradiction fun unreferenced => ?_
    have gone := isKept_eq_false_iff.mpr ⟨tree, leaf, uses, single, listed, unreferenced⟩
    rw [isKept_fix plain fixes mem] at gone
    cases gone
  dropped _ := isKept_eq_false_iff
  others := by
    obtain ⟨added, made, rfl⟩ := fix?_eq_some.mp fixes
    obtain ⟨front, back, whole, inserted⟩ := exists_insertAfterUses added (items.filter (isKept known attrs items))
    refine ⟨front, added, back, inserted, whole.symm, made, ?_⟩
    rw [whole, (mapM_eq_some_iff.mp made).length_eq]
  again := fix?_fixed plain fixes

/-- A fix with a table of plain paths always ends. -/
theorem fixed_in_one_run {known : Known} (plain : known.Plain) (attrs items : Trees) :
    ∃ fixed, fix? known attrs items = some fixed ∧ Fixes known attrs items fixed := by
  obtain ⟨fixed, fixes⟩ := plain.fix? attrs items
  exact ⟨fixed, fixes, fixes_of_plain plain fixes⟩

theorem plain_default : (Known.ofTable ({} : Config).knownImports).Plain := Known.plain_of_all (by decide +kernel)

def fourKnown : Known :=
  [("Duration", pathOfNames ["std", "time", "Duration"]), ("HashMap", pathOfNames ["std", "collections", "HashMap"]),
   ("Serialize", pathOfNames ["serde", "Serialize"]), ("pointer", pathOfNames ["hemmer_provider_sdk", "pointer"])]

/-- A file with an import too many and one too few. -/
def staleSource : String := "use std::time::Duration;\nfn f() \x7b pointer::to(1); \x7d"

theorem fixed_in_one_run_stale : ∃ items, parseFile staleSource = some items ∧ fourKnown.Plain ∧
    ∃ fixed, fix? fourKnown [] items = some fixed ∧ fixed.changes = 2 ∧ Fixes fourKnown [] items fixed := by
  have plain : fourKnown.Plain := Known.plain_of_all (by decide +kernel)
  have shown : ((parseFile staleSource).any fun items =>
      (fix? fourKnown [] items).any fun fixed => fixed.changes == 2) = true := by
    decide +kernel
  obtain ⟨items, parsed, changed⟩ := (Option.any_eq_true _ _).mp shown
  obtain ⟨fixed, fixes, rest⟩ := fixed_in_one_run plain [] items
  rw [fixes, Option.any_some, beq_iff_eq] at changed
  exact ⟨items, parsed, plain, fixed, fixes, changed, rest⟩

end Retype.Imports
