import Retype.Proofs.Provenance

/-! Variables that are called like the accessor.  No stage brings a name into scope at a tree that the code does not, so
such a variable is taken for the accessor only where a pattern of the code binds it.  There it is. -/

namespace Retype.Rewrite
open Retype.Code

theorem Wrapped.holds {x y v : Place} (wrapped : Wrapped x y) (h : Holds y v) : ∃ u, Holds x u ∧ v.names ⊆ u.names := by
  induction h using Relation.ReflTransGen.head_induction_on generalizing x with
  | refl => exact ⟨x, .refl, wrapped.names⟩
  | @head y z mem onward ih =>
    rcases wrapped.inside with paren | ⟨-, within⟩
    -- new parentheses and what is directly in them see what the tree in them sees
    · obtain ⟨names, t⟩ := y
      obtain rfl : t = parenOf x.tree := paren
      have parts : Place.inside ⟨names, parenOf x.tree⟩ = [⟨names, noAttrs⟩, ⟨names, .group .paren [x.tree]⟩] :=
        inside_of_bindsNothing rfl
      have around : v = z ∨ ∃ w ∈ z.inside, Holds w v := by
        rcases onward.cases_head with same | ⟨w, next, further⟩
        · exact .inl same.symm
        · exact .inr ⟨w, next, further⟩
      rw [parts, List.mem_pair] at mem
      rcases around with rfl | ⟨w, next, further⟩
      · refine ⟨x, .refl, ?_⟩
        rcases mem with rfl | rfl <;> exact wrapped.names
      · rcases mem with rfl | rfl
        · cases next
        · have below : Over [] w x := by
            rw [List.mem_singleton.mp next]
            exact ⟨rfl, wrapped.names⟩
          obtain ⟨u, holds, beyond⟩ := below.holds further
          exact ⟨u, holds, beyond.names⟩
    · obtain ⟨u, next, related⟩ := exists_of_mem within.flip mem
      obtain ⟨w, holds, less⟩ := ih related
      exact ⟨w, .head next holds, less⟩

/-- A walk from the first places visits, for all that the second ones hold, a place with no fewer names in scope. -/
def Covered (stage : Stage) (c : Context) (xs zs : List Place) : Prop :=
  ∃ ys, Arrives stage c xs ys [] ∧ ∀ z ∈ zs, ∀ v, Holds z v → ∃ y ∈ ys, v.names ⊆ y.names

section Walks
variable {stage : Stage} {c : Context}

theorem Covered.nil : Covered stage c [] [] := ⟨[], .none [], fun _ mem => (List.not_mem_nil mem).elim⟩

theorem Covered.cons {x z : Place} {xs zs : List Place} (fewer : z.names ⊆ x.names)
    (within : Covered stage c (x.made stage c).inside z.inside) (rest : Covered stage c xs zs) :
    Covered stage c (x :: xs) (z :: zs) := by
  obtain ⟨ys, arrives, covers⟩ := within
  obtain ⟨ys', arrives', covers'⟩ := rest
  refine ⟨x :: (ys ++ ys'), .visit (arrives.append arrives'), List.forall_mem_cons.mpr ⟨fun v holds => ?_, ?_⟩⟩
  · rcases holds.cases_head with rfl | ⟨w, mem, onward⟩
    · exact ⟨x, List.mem_cons_self, fewer⟩
    · obtain ⟨y, visited, less⟩ := covers w mem v onward
      exact ⟨y, List.mem_cons_of_mem _ (List.mem_append_left _ visited), less⟩
  · intro z' mem v holds
    obtain ⟨y, visited, less⟩ := covers' z' mem v holds
    exact ⟨y, List.mem_cons_of_mem _ (List.mem_append_right _ visited), less⟩

theorem Covered.wrapped {xs zs zs' : List Place} (h : Covered stage c xs zs) (wrapped : List.Forall₂ Wrapped zs zs') :
    Covered stage c xs zs' := by
  obtain ⟨ys, arrives, covers⟩ := h
  refine ⟨ys, arrives, fun z' mem v holds => ?_⟩
  obtain ⟨z, place, own⟩ := exists_of_mem wrapped.flip mem
  obtain ⟨u, within, fewer⟩ := own.holds holds
  obtain ⟨y, visited, less⟩ := covers z place u within
  exact ⟨y, visited, List.Subset.trans fewer less⟩

/-- A walk that ends leaves no names in scope but those that were in scope where it came. -/
theorem WalksAll.covered {ts ts' : Trees} {s s' : State} (h : WalksAll stage c ts s ts' s') {xs zs : List Place}
    (follows : Follows ts ts' xs zs) : Covered stage c xs zs :=
  h.follow .nil (fun fewer _ within rest => .cons fewer within rest) .wrapped follows

theorem Known.of_run {code block : Tree} {s s' : State} (staged : stage ∈ standard)
    (run : (stage.run? c code).run s = some (block, s')) {names : List String} (known : Known c block names) :
    Known c code names := by
  have start : Follows [code] [block] [⟨[], code⟩] [⟨[], block⟩] := ⟨rfl, rfl, .cons (.refl _) .nil⟩
  obtain ⟨ys, arrives, covers⟩ := (Stage.walksAll_of_run? run).covered start
  intro a mem
  rcases known a mem with ⟨w, holds, inScope⟩ | path
  · obtain ⟨y, visited, fewer⟩ := covers _ List.mem_cons_self w holds
    exact (built_of_mem staged arrives visited).known a (fewer inScope)
  · exact .inr path

end Walks

theorem Arrives.inside {c : Context} {stage : Stage} {xs ys : List Place} (arrives : Arrives stage c xs ys [])
    {x y : Place} (mem : x ∈ ys) (passes : (stage.all fun r => (r.made? c x.tree).isNone) = true) (i : Nat)
    (at_i : x.inside[i]? = some y) : y ∈ ys := by
  have same : stage.made c x.tree = x.tree := Stage.made_of_passes fun r own =>
    Option.isNone_iff_eq_none.mp (List.all_eq_true.mp passes r own)
  have within := arrives.closed.2 x mem
  rw [Place.made, same] at within
  exact within (List.mem_of_getElem? at_i)

/-- What the stages of a function are given: the first its body, the second what the first has made of it. -/
inductive Given (c : Context) (body : Tree) : Stage → Tree → Prop
  | body : Given c body normalize body
  | normalized {block : Tree} {s s' : State} (run : (normalize.run? c body).run s = some (block, s')) :
      Given c body promote block

theorem Given.staged {c : Context} {body block : Tree} {stage : Stage} (h : Given c body stage block) :
    stage ∈ standard := by
  cases h <;> decide

theorem Given.known {c : Context} {body block : Tree} {stage : Stage} (h : Given c body stage block)
    {names : List String} (known : Known c block names) : Known c body names := by
  cases h with
  | body => exact known
  | normalized run => exact known.of_run (by decide) run

/-- The accessor is told by its name alone.  Where a stage takes nothing for it, the function might as well have none,
and calls of methods of anything else stay.  A tree in which something is taken for it stands in what the stage is
given, with no fewer names in scope, and no name is in scope in either stage that the body does not bring into scope. -/
theorem accessor_known_by_name {c : Context} {body block : Tree} {stage : Stage} (given : Given c body stage block)
    {ys left : List Place} (arrives : Arrives stage c [⟨[], block⟩] ys left) :
    (∀ e, c.isAccessor e = true ↔ ∃ a, c.scope.accessor = some a ∧ e.bare.isVar a = true) ∧
    (∀ t, (∀ r ∈ stage, ¬ Takes c r t) → stage.offer c t = stage.offer c.unbound t) ∧
    (∀ attrs receiver dot m turbofish d args, c.isAccessor receiver = false →
      stage.offer c (.node (.expr .methodCall) [attrs, receiver, dot, word m, turbofish, .group d args]) =
        pure (.node (.expr .methodCall) [attrs, receiver, dot, word m, turbofish, .group d args])) ∧
    ∀ y ∈ ys, Known c body y.names ∧ ∀ r ∈ stage, Takes c r y.tree →
      ∃ root w, Source c block root ∧ Holds root w ∧ Below y w := by
  refine ⟨fun e => isAccessor_iff, fun t none => offer_unbound none,
    fun _ _ _ _ _ _ _ other => offer_methodCall stage other rfl, fun y mem => ?_⟩
  have built := built_of_mem given.staged arrives mem
  exact ⟨given.known built.known, fun r own takes => built.of_takes own takes⟩

/-- A read of a widget's name stands in the code. -/
theorem accessor_known_by_name_widget :
    let c : Context := ⟨{}, ⟨"WidgetModel", [⟨"WidgetModel", [⟨"name", "String", "name"⟩], true⟩]⟩, [], "widget_read",
      ⟨"widget_create", .create, "model", some "d"⟩, [], none⟩
    let read := methodCallOf (var "d") "get" [stringExpr "name"]
    let block := blockOf [letMut "name" read]
    ∃ ys, Arrives normalize c [⟨[], block⟩] ys [] ∧ Takes c .accessorGet read ∧ ∃ y ∈ ys, y.tree = read ∧
      Known c block y.names ∧ ∃ root w, Source c block root ∧ Holds root w ∧ Below y w := by
  intro c read block
  have ends : ((normalize.run? c block).run {}).isSome = true := by decide +kernel
  obtain ⟨⟨block', s'⟩, run⟩ := Option.isSome_iff_exists.mp ends
  obtain ⟨ys, _, arrives, -, -⟩ := Stage.paired_of_run? run
  have list := arrives.inside (arrives.closed.1 (List.mem_singleton.mpr rfl)) (by decide +kernel) 0 rfl
  have bound := arrives.inside list (by decide +kernel) 0 rfl
  have init := arrives.inside bound (by decide +kernel) 3 rfl
  have visited := arrives.inside init (by decide +kernel) 1 rfl
  have takes : Takes c .accessorGet read := .read (by decide +kernel) (.inr rfl)
  obtain ⟨known, source⟩ := (accessor_known_by_name .body arrives).2.2.2 _ visited
  exact ⟨ys, arrives, takes, _, visited, rfl, known, source .accessorGet (by decide) takes⟩

/-- A variable of a loop that is called like the accessor is taken for it. -/
theorem accessor_taken_under_loop :
    let c : Context := ⟨{}, ⟨"WidgetModel", [⟨"WidgetModel", [⟨"name", "String", "name"⟩], true⟩]⟩, [], "widget_read",
      ⟨"widget_create", .create, "model", some "d"⟩, [], none⟩
    let call := methodCallOf (var "d") "id" []
    let block := blockOf [tailStmt (.node (.expr .forLoop) [noAttrs, Tree.absent, word "for", identPat false "d",
      word "in", var "items", blockOf [closedStmt call]])]
    ¬ ∀ ys, Arrives normalize c [⟨[], block⟩] ys [] → ∀ y ∈ ys, "d" ∈ y.names →
      (∀ r ∈ normalize, ¬ Takes c r y.tree) ∧ (y.tree = call → normalize.made c y.tree = call) := by
  intro c call block always
  have ends : ((normalize.run? c block).run {}).isSome = true := by decide +kernel
  obtain ⟨⟨block', s'⟩, run⟩ := Option.isSome_iff_exists.mp ends
  obtain ⟨ys, _, arrives, -, -⟩ := Stage.paired_of_run? run
  have list := arrives.inside (arrives.closed.1 (List.mem_singleton.mpr rfl)) (by decide +kernel) 0 rfl
  have loop := arrives.inside list (by decide +kernel) 0 rfl
  have looped := arrives.inside loop (by decide +kernel) 0 rfl
  have inner := arrives.inside looped (by decide +kernel) 6 rfl
  have stmts := arrives.inside inner (by decide +kernel) 0 rfl
  have stmt := arrives.inside stmts (by decide +kernel) 0 rfl
  have visited := arrives.inside stmt (by decide +kernel) 0 rfl
  obtain ⟨-, kept⟩ := always ys arrives _ visited (by decide +kernel)
  have changed : (normalize.made c call).text ≠ call.text := by decide +kernel
  exact changed (congrArg Tree.text (kept rfl))

end Retype.Rewrite
