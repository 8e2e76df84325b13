import Retype.Proofs.DroppedImports

/-! Paths in the bodies of macro calls.  The scan takes any colon before a name for `::`, so a path after a lone colon,
such as the value of a field, is taken for the rest of one; and it takes a colon that another sign follows directly for
`::`.  Where neither happens it finds the paths exactly, and what it finds is bound after a fix. -/

namespace Retype.Imports
open Retype.Code

/-- A lone colon beside a name hides no path, and makes none. -/
def ColonsTell (ts : Trees) : Prop := ∀ n,
  (Stands (fun before after => BeginsPath before after ∧ AfterColon before) n [] ts → Stands IsTaken n [] ts) ∧
  (Stands (fun before after => IsTaken before after ∧ ¬ Separates after) n [] ts → Stands BeginsPath n [] ts)

theorem isTaken_iff_beginsPath {ts : Trees} :
    (∀ n, Stands IsTaken n [] ts ↔ Stands BeginsPath n [] ts) ↔ ColonsTell ts := by
  constructor
  · intro same n
    exact ⟨fun h => (same n).mpr (h.mono fun _ _ => And.left), fun h => (same n).mp (h.mono fun _ _ => And.left)⟩
  · refine fun tell n => ⟨fun taken => ?_, fun begins => ?_⟩
    · have either : Stands (fun before after => StartsPath before after ∨ IsTaken before after ∧ ¬ Separates after)
          n [] ts :=
        taken.mono fun before after h =>
          (Classical.em (Separates after)).imp (fun separates => ⟨separates, h.2⟩) (fun lone => ⟨h, lone⟩)
      rcases Stands.or_iff.mp either with starts | lone
      · exact starts.mono StartsPath.beginsPath
      · exact (tell n).2 lone
    · have either : Stands (fun before after => BeginsPath before after ∧ AfterColon before ∨ StartsPath before after)
          n [] ts :=
        begins.mono fun before after h =>
          (Classical.em (AfterColon before)).imp (fun lone => ⟨h, lone⟩) (fun free => ⟨h.1, free⟩)
      rcases Stands.or_iff.mp either with lone | starts
      · exact (tell n).1 lone
      · exact starts.mono StartsPath.isTaken

/-- What the scan finds in a body, that it is the names of its paths exactly if lone colons hide none and make none, and
what a fix binds of them. -/
theorem macro_paths_found {known : Known} (plain : known.Plain) :
    (∀ n ts, n ∈ scan none ts ↔ Stands IsTaken n [] (apartAll ts)) ∧
    (∀ ts, (∀ n, n ∈ scan none ts ↔ Stands BeginsPath n [] (apartAll ts)) ↔ ColonsTell (apartAll ts)) ∧
    ∀ attrs items, ∃ fixed, fix? known attrs items = some fixed ∧
      (∀ t path rest n, t ∈ attrs ++ items → Part (.node .macroBody (path :: rest)) t → known.Lists n →
        Stands StartsPath n [] (apartAll (Trees.raw rest)) → IsBound fixed.items n) ∧
      ∀ n, known.Lists n → (IsBound fixed.items n ↔
        n ∈ referencesIn (attrs ++ items) ∨ IsBound (items.filter (isKept known attrs items)) n) := by
  refine ⟨fun n ts => mem_scan_none_iff, ?exact, fun attrs items => ?bound⟩
  case exact =>
    intro ts
    simp only [mem_scan_none_iff]
    exact isTaken_iff_beginsPath
  case bound =>
    obtain ⟨fixed, fixes⟩ := plain.fix? attrs items
    refine ⟨fixed, fixes, ?_, fun n listed => isBound_fix_iff plain fixes listed⟩
    intro t path rest n mem part listed starts
    have named : Names IsTaken n (.node .macroBody (path :: rest)) := .tokens (starts.mono StartsPath.isTaken)
    have refers : n ∈ referencesIn (attrs ++ items) := by
      rw [mem_referencesIn_iff]
      exact ⟨t, mem, (mem_references_iff n t).mpr ⟨_, part, named⟩⟩
    exact isBound_fix plain fixes listed refers

/-- `show! { pointer::from(x) }` -/
def macroOfPath : Tree :=
  .node (.item .macroCall) [noAttrs, .node .macroBody [pathOf "show", op "!", .group .brace
    [word "pointer", .leaf (.punct ":" true), op ":", word "from", .group .paren [word "x"]]], Tree.absent]

theorem macro_paths_found_show : fourKnown.Plain ∧ fourKnown.Lists "pointer" ∧
    ∃ fixed, fix? fourKnown [] [macroOfPath] = some fixed ∧ IsBound fixed.items "pointer" := by
  have plain : fourKnown.Plain := Known.plain_of_all (by decide +kernel)
  have listed : fourKnown.Lists "pointer" := by
    unfold Known.Lists
    decide
  obtain ⟨fixed, fixes, bound, -⟩ := (macro_paths_found plain).2.2 [] [macroOfPath]
  refine ⟨plain, listed, fixed, fixes, ?_⟩
  refine bound macroOfPath (pathOf "show") _ "pointer" List.mem_cons_self
    (.inner (List.mem_cons_of_mem _ List.mem_cons_self) .self) listed ?_
  exact .later (.inside (.here ⟨⟨_, _, rfl⟩, by rintro ⟨joint, rest, ⟨⟩⟩⟩))

/-- The value of a field is a path after a lone colon. -/
example : scan none [word "name", op ":", word "pointer", .leaf (.punct ":" true), op ":", word "from"] = [] := by
  decide

/-- A reference is no path. -/
example : scan none [word "name", .leaf (.punct ":" true), op "&", word "x"] = ["name"] := by decide

end Retype.Imports
