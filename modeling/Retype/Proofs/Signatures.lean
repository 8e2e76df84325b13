import Retype.Code.Declaration
import Retype.Proofs.BoundCalls
import Retype.Proofs.Lookups

/-! Signatures of helpers.  The first call that asks for an edit of a helper's signature settles it: the edit is made
when the function that the call stands in is done, and no later call, in whatever function, changes the signature
again. -/

namespace Retype.Rewrite
open Retype.Code

def BoundCall.asks (call : BoundCall) (name : String) : Bool := call.name == name && !call.edit.isEmpty

/-- The first call of a helper that asks for an edit. -/
def firstAsking (name : String) (calls : List BoundCall) : Option BoundCall := calls.find? (·.asks name)

/-- The edit that the first call asks for. -/
def firstEdit (name : String) (calls : List BoundCall) : Option SignatureEdit :=
  (firstAsking name calls).map (·.edit)

theorem firstAsking_cons (name : String) (call : BoundCall) (calls : List BoundCall) :
    firstAsking name (call :: calls) =
      if call.asks name then some call else firstAsking name calls := by
  rw [firstAsking, List.find?_cons]
  split <;> rename_i asks <;> simp only [asks] <;> rfl

theorem firstAsking_append (name : String) (before after : List BoundCall) :
    firstAsking name (before ++ after) = (firstAsking name before).or (firstAsking name after) :=
  List.find?_append

theorem State.note_cases (s : State) (call : BoundCall) :
    (call.edit.isEmpty = false ∧ s.isTransformed call.name = false ∧ s.note call =
      { s.promote call.name call.edit.params with
        transformed := insertSorted call.name s.transformed
        pending := Table.insert call.name call.edit s.pending }) ∨
    ((call.edit.isEmpty = true ∨ s.isTransformed call.name = true) ∧ s.note call = s.promote call.name call.edit.params) := by
  rw [note, recordEdit]
  by_cases settled : (call.edit.isEmpty || (s.promote call.name call.edit.params).isTransformed call.name) = true
  · rw [if_pos settled]
    exact .inr ⟨(Bool.or_eq_true _ _).mp settled, rfl⟩
  · rw [if_neg settled]
    rw [Bool.or_eq_true, not_or, Bool.not_eq_true, Bool.not_eq_true] at settled
    exact .inl ⟨settled.1, settled.2, rfl⟩

section Notes
variable {s : State} {call : BoundCall}

theorem contains_insertSorted (name helper : String) (names : List String) :
    (insertSorted helper names).contains name = (names.contains name || helper == name) := by
  rw [Bool.eq_iff_iff, Bool.or_eq_true, List.contains_iff_mem, List.contains_iff_mem, mem_insertSorted, beq_iff_eq,
    or_comm, eq_comm]

theorem isTransformed_note (s : State) (call : BoundCall) (name : String) :
    (s.note call).isTransformed name = (s.isTransformed name || call.asks name) := by
  unfold BoundCall.asks
  rcases s.note_cases call with ⟨asks, -, same⟩ | ⟨settled, same⟩
  · rw [same, asks, Bool.not_false, Bool.and_true]
    exact contains_insertSorted name call.name s.transformed
  · rw [same]
    show s.isTransformed name = _
    rcases settled with empty | settled
    · rw [empty, Bool.not_true, Bool.and_false, Bool.or_false]
    · by_cases own : call.name = name
      · rw [← own, settled, Bool.true_or]
      · rw [beq_eq_false_iff_ne.mpr own, Bool.false_and, Bool.or_false]

theorem get?_pending_note (s : State) (call : BoundCall) (name : String) :
    Table.get? (s.note call).pending name =
      if call.asks name && !s.isTransformed name then some call.edit else Table.get? s.pending name := by
  unfold BoundCall.asks
  rcases s.note_cases call with ⟨asks, fresh, same⟩ | ⟨settled, same⟩
  · rw [same, asks, Bool.not_false, Bool.and_true]
    by_cases own : call.name = name
    · rw [← own, beq_self_eq_true, fresh]
      exact Table.get?_insert_self s.pending call.name call.edit
    · rw [beq_eq_false_iff_ne.mpr own]
      exact Table.get?_insert_of_ne s.pending call.edit (Ne.symm own)
  · have nothing : (call.name == name && !call.edit.isEmpty && !s.isTransformed name) = false := by
      rcases settled with empty | settled
      · rw [empty, Bool.not_true, Bool.and_false, Bool.false_and]
      · by_cases own : call.name = name
        · rw [← own, settled, Bool.not_true, Bool.and_false]
        · rw [beq_eq_false_iff_ne.mpr own, Bool.false_and, Bool.false_and]
    rw [same, nothing]
    rfl

end Notes

theorem mem_promoted_note (s : State) (call : BoundCall) (name : String) :
    name ∈ (s.note call).promoted ↔ name ∈ s.promoted ∨ call.name = name := by
  have same : (s.note call).promoted = insertSorted call.name s.promoted := by
    rcases s.note_cases call with ⟨-, -, same⟩ | ⟨-, same⟩ <;> rw [same] <;> rfl
  rw [same, mem_insertSorted, or_comm, eq_comm]

theorem mem_promoted_foldl_note (calls : List BoundCall) (s : State) (name : String) :
    name ∈ (calls.foldl State.note s).promoted ↔ name ∈ s.promoted ∨ ∃ call ∈ calls, call.name = name := by
  induction calls generalizing s with
  | nil => simp
  | cons call calls ih =>
    rw [List.foldl_cons, ih, mem_promoted_note, or_assoc]
    simp only [List.mem_cons, exists_eq_or_imp]

theorem isTransformed_foldl_note (calls : List BoundCall) (s : State) (name : String) :
    (calls.foldl State.note s).isTransformed name = (s.isTransformed name || (firstAsking name calls).isSome) := by
  induction calls generalizing s with
  | nil => exact (Bool.or_false _).symm
  | cons call calls ih =>
    rw [List.foldl_cons, ih, isTransformed_note, firstAsking_cons, Bool.or_assoc]
    cases call.asks name <;> rfl

/-- Edits are only pending for helpers that have their signature. -/
def PendingSettled (s : State) : Prop := ∀ name, s.isTransformed name = false → Table.get? s.pending name = none

theorem get?_pending_foldl_note (calls : List BoundCall) {s : State} (settled : PendingSettled s) (name : String) :
    Table.get? (calls.foldl State.note s).pending name =
      if s.isTransformed name then Table.get? s.pending name else firstEdit name calls := by
  induction calls generalizing s with
  | nil =>
    by_cases has : s.isTransformed name = true
    · rw [if_pos has]
      rfl
    · rw [if_neg has]
      exact settled name (Bool.not_eq_true _ ▸ has)
  | cons call calls ih =>
    have settled' : PendingSettled (s.note call) := by
      intro other fresh
      rw [isTransformed_note, Bool.or_eq_false_iff] at fresh
      rw [get?_pending_note, fresh.2, Bool.false_and, if_neg Bool.false_ne_true, settled other fresh.1]
    rw [List.foldl_cons, ih settled', isTransformed_note, get?_pending_note, firstEdit, firstEdit, firstAsking_cons]
    cases s.isTransformed name <;> cases call.asks name <;> rfl

/-- A helper with an edit that is not made yet has its signature settled, and no second edit; such a helper is a
method, and only helpers are methods. -/
structure Bounded (r : Resource) (s : State) : Prop where
  once : (s.pending.map (·.1)).Nodup
  pending : ∀ name ∈ s.pending.map (·.1), name ∈ s.transformed
  transformed : ∀ name ∈ s.transformed, name ∈ s.promoted
  promoted : ∀ name ∈ s.promoted, ∃ f ∈ r.functions, f.role.isCrud = false ∧ f.name = name

/-- The call is of a function of the resource that is neither a create, read, update nor delete. -/
def IsKnown (r : Resource) (call : BoundCall) : Prop := ∃ f ∈ r.functions, f.role.isCrud = false ∧ f.name = call.name

namespace Bounded
variable {r : Resource} {s : State}

theorem not_pending (bounded : Bounded r s) {name : String} (fresh : s.isTransformed name = false) :
    name ∉ s.pending.map (·.1) := by
  intro pending
  rw [State.isTransformed, List.contains_iff_mem.mpr (bounded.pending name pending)] at fresh
  cases fresh

theorem pendingSettled (bounded : Bounded r s) : PendingSettled s := by
  intro name fresh
  have absent := bounded.not_pending fresh
  rwa [← List.contains_iff_mem, ← Table.isSome_get?, Option.not_isSome_iff_eq_none] at absent

theorem note (bounded : Bounded r s) {call : BoundCall} (known : IsKnown r call) : Bounded r (s.note call) := by
  have promoted : ∀ name ∈ insertSorted call.name s.promoted,
      ∃ f ∈ r.functions, f.role.isCrud = false ∧ f.name = name := by
    intro name mem
    rcases mem_insertSorted.mp mem with rfl | mem
    · exact known
    · exact bounded.promoted name mem
  have kept : ∀ name ∈ s.transformed, name ∈ insertSorted call.name s.promoted := fun name mem =>
    mem_insertSorted.mpr (.inr (bounded.transformed name mem))
  rcases s.note_cases call with ⟨-, fresh, same⟩ | ⟨-, same⟩
  · have keys := (Table.insert_perm (bounded.not_pending fresh) call.edit).map (·.1)
    rw [same]
    refine ⟨?_, fun name mem => ?_, fun name mem => ?_, promoted⟩
    · exact keys.nodup_iff.mpr (List.nodup_cons.mpr ⟨bounded.not_pending fresh, bounded.once⟩)
    · rcases List.mem_cons.mp (keys.mem_iff.mp mem) with rfl | mem
      · exact mem_insertSorted.mpr (.inl rfl)
      · exact mem_insertSorted.mpr (.inr (bounded.pending name mem))
    · rcases mem_insertSorted.mp mem with rfl | mem
      · exact mem_insertSorted.mpr (.inl rfl)
      · exact kept name mem
  · rw [same]
    exact ⟨bounded.once, bounded.pending, kept, promoted⟩

theorem foldl_note (bounded : Bounded r s) {calls : List BoundCall} (known : ∀ call ∈ calls, IsKnown r call) :
    Bounded r (calls.foldl State.note s) := by
  induction calls generalizing s with
  | nil => exact bounded
  | cons call calls ih =>
    exact ih (bounded.note (known call List.mem_cons_self)) fun call mem => known call (List.mem_cons_of_mem _ mem)

theorem of_helpersOnly (bounded : Bounded r s.helpersOnly) : Bounded r s :=
  ⟨bounded.once, bounded.pending, bounded.transformed, bounded.promoted⟩

theorem foldl_record (bounded : Bounded r s) {visits : List Visit} (staged : ∀ v ∈ visits, v.stage ∈ standard)
    (known : ∀ call ∈ calls visits, IsKnown r call) : Bounded r (visits.foldl Visit.record s) := by
  refine of_helpersOnly ?_
  rw [helpersOnly_foldl_record staged]
  exact foldl_note (s := s.helpersOnly) ⟨bounded.once, bounded.pending, bounded.transformed, bounded.promoted⟩ known

theorem cleared (bounded : Bounded r s) : Bounded r { s with pending := [] } :=
  ⟨List.nodup_nil, fun _ mem => (List.not_mem_nil mem).elim, bounded.transformed, bounded.promoted⟩

end Bounded

/-- A function but for its body. -/
def heading (f : ResourceFn) : ResourceFn := { f with code := { f.code with body := Tree.absent } }

/-- A function with its edit, if there is one. -/
def edited (e? : Option SignatureEdit) (f : ResourceFn) : ResourceFn :=
  match e? with
  | some e => { f with code := e.apply f.code }
  | none => f

theorem heading_editFirst (name : String) (e : SignatureEdit) (fs : List ResourceFn) :
    (editFirst name e.apply fs).map heading = editFirst name e.apply (fs.map heading) := by
  induction fs with
  | nil => rfl
  | cons f fs ih =>
    have own : (heading f).name = f.name := rfl
    rw [List.map_cons, editFirst, editFirst, own]
    split
    · rfl
    · rw [List.map_cons, ih]

theorem find?_editFirst (name : String) (e : SignatureEdit) (fs : List ResourceFn) (n : String) :
    (editFirst name e.apply fs).find? (·.name == n) =
      (fs.find? (·.name == n)).map (edited (if name == n then some e else none)) := by
  induction fs with
  | nil => rfl
  | cons f fs ih =>
    rw [editFirst]
    by_cases own : f.name = name
    · rw [if_pos own, List.find?_cons, List.find?_cons, ← own]
      cases here : f.name == n
      · rw [if_neg Bool.false_ne_true]
        exact Option.map_id'.symm
      · rfl
    · rw [if_neg own, List.find?_cons, List.find?_cons, ih]
      cases here : f.name == n
      · rfl
      · rw [beq_iff_eq.mp here] at own
        rw [beq_eq_false_iff_ne.mpr (Ne.symm own)]
        rfl

theorem find?_applyPending {s : State} (once : (s.pending.map (·.1)).Nodup) (fs : List ResourceFn) (n : String) :
    ((applyPending s fs).1.map heading).find? (·.name == n) =
      ((fs.map heading).find? (·.name == n)).map (edited (Table.get? s.pending n)) := by
  unfold applyPending
  dsimp only
  generalize s.pending = pending at once ⊢
  induction pending generalizing fs with
  | nil => exact Option.map_id'.symm
  | cons entry pending ih =>
    obtain ⟨name, e⟩ := entry
    obtain ⟨fresh, once⟩ := List.nodup_cons.mp once
    rw [List.foldl_cons, ih _ once, heading_editFirst, find?_editFirst, Option.map_map]
    congr 1
    funext f
    by_cases own : name = n
    · have none : Table.get? pending n = none := by
        rwa [own, ← List.contains_iff_mem, ← Table.isSome_get?, Option.not_isSome_iff_eq_none] at fresh
      rw [Function.comp_apply, none, Table.get?, List.find?_cons, own, beq_self_eq_true]
      rfl
    · rw [Function.comp_apply, Table.get?, Table.get?, List.find?_cons, beq_eq_false_iff_ne.mpr own]
      rfl

/-- What visits leave of functions, bodies aside, and of what is recorded of helpers. -/
structure Progress (fs : List ResourceFn) (s : State) (calls : List BoundCall) (fs' : List ResourceFn) (s' : State) :
    Prop where
  promoted : ∀ name, name ∈ s'.promoted ↔ name ∈ s.promoted ∨ ∃ call ∈ calls, call.name = name
  transformed : ∀ name, s'.isTransformed name = (s.isTransformed name || (firstAsking name calls).isSome)
  headings : ∀ name, (fs'.map heading).find? (·.name == name) = ((fs.map heading).find? (·.name == name)).map
    (edited (if s.isTransformed name then none else firstEdit name calls))

theorem Progress.none (fs : List ResourceFn) (s : State) : Progress fs s [] fs s where
  promoted name := ⟨.inl, fun h => h.resolve_right fun ⟨_, mem, _⟩ => List.not_mem_nil mem⟩
  transformed name := (Bool.or_false _).symm
  headings name := by
    have nothing : (if s.isTransformed name then .none else firstEdit name []) = .none := ite_self _
    rw [nothing]
    exact Option.map_id'.symm

theorem Progress.trans {fs fs₁ fs₂ : List ResourceFn} {s s₁ s₂ : State} {before after : List BoundCall}
    (first : Progress fs s before fs₁ s₁) (second : Progress fs₁ s₁ after fs₂ s₂) :
    Progress fs s (before ++ after) fs₂ s₂ where
  promoted name := by
    rw [second.promoted, first.promoted, or_assoc]
    simp only [List.mem_append, or_and_right, exists_or]
  transformed name := by
    rw [second.transformed, first.transformed, firstAsking_append, Option.isSome_or, Bool.or_assoc]
  headings name := by
    rw [second.headings, first.headings, first.transformed, Option.map_map, firstEdit, firstEdit, firstEdit,
      firstAsking_append]
    congr 1
    funext f
    cases s.isTransformed name <;> cases firstAsking name before <;> rfl

section Run
variable {config : Config} {r : Resource} {fs : List ResourceFn} {f : ResourceFn} {s s₁ : State} {stages : List Stage}
  {body t : Tree} {visits : List Visit}

theorem known_of_context (framed : fs.map frame = r.functions.map frame)
    (contexts : ∀ v ∈ visits, v.context = contextFor config r fs f) : ∀ call ∈ calls visits, IsKnown r call := by
  intro call mem
  obtain ⟨v, visited, promoted⟩ := mem_calls.mp mem
  obtain ⟨value, name, signature, args, -, called, rfl⟩ := boundCall?_eq_some.mp (Visit.call?_eq_some.mp promoted).2
  obtain ⟨call, -, -, known, -⟩ := helperCall?_eq_some.mp called
  have helper : isHelper v.context name = true := by rw [isHelper, known]; rfl
  rw [contexts v visited, contextFor, isHelper_make, any_of_frames (fun _ => rfl) framed, List.any_eq_true] at helper
  obtain ⟨g, mem, is⟩ := helper
  rw [Bool.and_eq_true, Bool.not_eq_true', beq_iff_eq] at is
  exact ⟨g, mem, is⟩

theorem Bounded.ran (bounded : Bounded r s) (framed : fs.map frame = r.functions.map frame)
    (ran : Ran (contextFor config r fs f) standard body s visits stages t s₁) : Bounded r s₁ := by
  rw [ran.record_eq]
  exact bounded.foldl_record (fun v mem => (ran.of_mem mem).1) (known_of_context framed fun v mem => (ran.of_mem mem).2)

theorem progress_of_ran (bounded : Bounded r s) (clear : s.pending = []) {i : Nat} (found : fs[i]? = some f)
    (framed : fs.map frame = r.functions.map frame)
    (ran : Ran (contextFor config r fs f) standard f.code.body s visits [] body s₁) :
    Progress fs s (calls visits)
      (applyPending s₁ (fs.set i (withBody f body))).1 { s₁ with pending := [] } := by
  have recorded : s₁.helpersOnly = (calls visits).foldl State.note s.helpersOnly := by
    rw [ran.record_eq, helpersOnly_foldl_record fun v mem => (ran.of_mem mem).1]
  refine ⟨fun name => ?_, fun name => ?_, fun name => ?_⟩
  · show name ∈ s₁.helpersOnly.promoted ↔ _
    rw [recorded, mem_promoted_foldl_note]
    rfl
  · show s₁.helpersOnly.isTransformed name = _
    rw [recorded, isTransformed_foldl_note]
    rfl
  · have pending : Table.get? s₁.pending name =
        if s.isTransformed name then none else firstEdit name (calls visits) := by
      have settled : PendingSettled s.helpersOnly := bounded.pendingSettled
      show Table.get? s₁.helpersOnly.pending name = _
      rw [recorded, get?_pending_foldl_note _ settled]
      show (if s.isTransformed name then Table.get? s.pending name else _) = _
      rw [clear]
      rfl
    have headings : (fs.set i (withBody f body)).map heading = fs.map heading :=
      map_set_of_eq found rfl
    rw [find?_applyPending (bounded.ran framed ran).once, headings, pending]

theorem Runs.progress {is left : List Nat} {fs fs' : List ResourceFn} {s s' : State}
    (h : Runs config r is fs s visits left fs' s') (bounded : Bounded r s) (clear : s.pending = [])
    (framed : fs.map frame = r.functions.map frame) :
    Bounded r s' ∧ s'.pending = [] ∧ Progress fs s (calls visits) fs' s' := by
  induction h with
  | none is fs s => exact ⟨bounded, clear, .none fs s⟩
  | function found ran _ ih =>
    have first := progress_of_ran bounded clear found framed ran
    obtain ⟨bounded', clear', rest⟩ :=
      ih (bounded.ran framed ran).cleared rfl ((frame_rewritten found _ _).trans framed)
    rw [calls_append]
    exact ⟨bounded', clear', first.trans rest⟩

theorem Bounded.start (r : Resource) : Bounded r {} where
  once := List.nodup_nil
  pending _ mem := (List.not_mem_nil mem).elim
  transformed _ mem := (List.not_mem_nil mem).elim
  promoted _ mem := (List.not_mem_nil mem).elim

theorem RunsUntil.progress {left : List Nat} (h : RunsUntil config r visits left fs s) :
    Bounded r s ∧ s.pending = [] ∧ Progress r.functions {} (calls visits) fs s :=
  Runs.progress h (.start r) rfl rfl

theorem Reaches.bounded (h : Reaches config r visits s) : Bounded r s := by
  cases h with
  | between runs => exact runs.progress.1
  | within runs found ran visiting =>
    rename_i done i left fs f stage stages block visited ahead s s₁
    have bounded := runs.progress.1
    have framed := Runs.frames runs
    rw [← foldl_record]
    have offers : ∀ v ∈ visited.map (Visit.mk stage (contextFor config r fs f)),
        v.stage = stage ∧ v.context = contextFor config r fs f := by
      intro v mem
      obtain ⟨t, -, rfl⟩ := List.mem_map.mp mem
      exact ⟨rfl, rfl⟩
    refine (bounded.ran framed ran).foldl_record (fun v mem => ?_)
      (known_of_context framed fun v mem => (offers v mem).2)
    rw [(offers v mem).1]
    exact ran.left_subset List.mem_cons_self

end Run

def unannotatedParam : Tree → Tree
  | .node .param [attrs, pat, colon, _] => .node .param [attrs, pat, colon, Tree.absent]
  | t => t

/-- A function but for its body, the types of its parameters and of its result. -/
def unannotated (f : ResourceFn) : ResourceFn :=
  { f with code := { f.code with
      inputs := f.code.inputs.map unannotatedParam, output := Tree.absent, body := Tree.absent } }

theorem unannotated_applyParams (e : SignatureEdit) (index : Nat) (params : Trees) :
    (e.applyParams index params).map unannotatedParam = params.map unannotatedParam := by
  fun_induction SignatureEdit.applyParams e index params with
  | case1 => rfl
  | case2 index attrs pat colon ty rest ih => rw [List.map_cons, ih]; rfl
  | case3 index t rest noParam ih => rw [List.map_cons, List.map_cons, ih]

theorem unannotated_edited (e? : Option SignatureEdit) (f : ResourceFn) :
    unannotated (edited e? f) = unannotated f := by
  cases e? with
  | none => rfl
  | some e =>
    have inputs := unannotated_applyParams e 0 f.code.inputs
    simp only [edited, unannotated, SignatureEdit.apply, inputs]

theorem find?_heading {fs : List ResourceFn} (distinct : (fs.map (·.name)).Nodup) {f : ResourceFn} (mem : f ∈ fs) :
    (fs.map heading).find? (·.name == f.name) = some (heading f) := by
  have distinct' : ((fs.map heading).map (·.name)).Nodup := by
    rw [List.map_map]
    exact distinct
  exact find?_key_of_mem distinct' (List.mem_map_of_mem mem)

/-- The create, read, update and delete functions are not called as helpers, so nothing asks for an edit of theirs. -/
theorem firstEdit_of_isCrud {r : Resource} {s : State} {fs : List ResourceFn} {calls : List BoundCall}
    (distinct : (r.functions.map (·.name)).Nodup) (bounded : Bounded r s)
    (progress : Progress r.functions {} calls fs s)
    {f : ResourceFn} (mem : f ∈ r.functions) (crud : f.role.isCrud = true) : firstEdit f.name calls = none := by
  rw [firstEdit, Option.map_eq_none_iff, ← Option.not_isSome_iff_eq_none]
  intro asked
  have transformed : s.isTransformed f.name = true := by rw [progress.transformed, asked, Bool.or_true]
  have promoted := bounded.transformed _ (List.contains_iff_mem.mp transformed)
  obtain ⟨g, mem', helper, same⟩ := bounded.promoted _ promoted
  have one := find?_heading distinct mem'
  rw [same, find?_heading distinct mem, Option.some.injEq] at one
  have roles : f.role = g.role := congrArg (·.role) one
  rw [← roles, crud] at helper
  cases helper

theorem RunsUntil.headings {config : Config} {r : Resource} {visits : List Visit} {fs : List ResourceFn} {s : State}
    (runs : RunsUntil config r visits [] fs s) (distinct : (r.functions.map (·.name)).Nodup) :
    fs.map heading = r.functions.map fun f =>
      if f.role.isCrud then heading f else edited (firstEdit f.name (calls visits)) (heading f) := by
  obtain ⟨bounded, -, progress⟩ := runs.progress
  have names : fs.map (·.name) = r.functions.map (·.name) := by
    have same := congrArg (List.map ResourceFn.name) (Runs.frames runs)
    rwa [List.map_map, List.map_map] at same
  have distinct' : (fs.map (·.name)).Nodup := names ▸ distinct
  refine List.ext_getElem? fun i => ?_
  have sameName : (fs.map (·.name))[i]? = (r.functions.map (·.name))[i]? := by rw [names]
  rw [List.getElem?_map, List.getElem?_map] at sameName ⊢
  rcases found : r.functions[i]? with _ | f
  · rw [found, Option.map_none, Option.map_eq_none_iff] at sameName
    rw [sameName]
    rfl
  · rw [found] at sameName
    obtain ⟨f', found', sameName⟩ := Option.map_eq_some_iff.mp sameName
    replace sameName : f'.name = f.name := sameName
    have mem := List.mem_of_getElem? found
    have settled := progress.headings f.name
    rw [find?_heading distinct mem, ← sameName, find?_heading distinct' (List.mem_of_getElem? found')] at settled
    rw [found', Option.map_some, settled, sameName]
    show some _ = some (if f.role.isCrud then heading f else edited (firstEdit f.name (calls visits)) (heading f))
    by_cases crud : f.role.isCrud = true
    · rw [if_pos crud, firstEdit_of_isCrud distinct bounded progress mem crud]
      rfl
    · rw [if_neg crud]
      rfl

/-- The signature of a helper is edited at most once in a run, by the first call that asks for an edit. -/
theorem signatures_edited_once {config : Config} {r : Resource} (distinct : (r.functions.map (·.name)).Nodup) :
    (∀ visits s, Reaches config r visits s → Bounded r s) ∧
    (∀ visits left fs s, RunsUntil config r visits left fs s → s.pending = []) ∧
    ∀ r' s, rewriteResource? config r = some (r', s) → r' = { r with functions := r'.functions } ∧
      ∃ visits, RunsUntil config r visits [] r'.functions s ∧
        r'.functions.map unannotated = r.functions.map unannotated ∧
        r'.functions.map heading = r.functions.map fun f =>
          if f.role.isCrud then heading f else edited (firstEdit f.name (calls visits)) (heading f) := by
  refine ⟨fun visits s reaches => reaches.bounded, fun visits left fs s runs => runs.progress.2.1, ?_⟩
  intro r' s rewritten
  obtain ⟨visits, runs⟩ := runsUntil_of_rewriteResource? rewritten
  have headings := runs.headings distinct
  refine ⟨(rewriteResource?_frame rewritten).1, visits, runs, ?_, headings⟩
  have through : ∀ fs : List ResourceFn, fs.map unannotated = (fs.map heading).map unannotated := by
    intro fs
    rw [List.map_map]
    rfl
  rw [through, headings, List.map_map]
  refine List.map_congr_left fun f _ => ?_
  rw [Function.comp_apply]
  split
  · rfl
  · exact unannotated_edited _ _

/-- `fn name(params) { … }` -/
def fnOf (name : String) (params : List (String × Tree)) (stmts : Trees) : Fn where
  attrs := noAttrs
  vis := Tree.absent
  head := [Tree.absent, Tree.absent, Tree.absent, Tree.absent, word "fn", word name, Tree.absent]
  inputs := commaList (params.map fun (name, ty) => .node .param [noAttrs, identPat false name, op ":", ty])
  output := Tree.absent
  preds := Tree.absent
  body := blockOf stmts

/-- `add` calls `label(other, d.get("name"))` and then `label(d, first)`; the state that `label` takes it reads. -/
def labelResource : Resource where
  type := "tag"
  name := "Tag"
  package := ""
  schemaVersion := 0
  idValidator := none
  stateUpgraders := none
  imports := []
  models := ⟨"TagModel", [⟨"TagModel", [⟨"name", "String", "name"⟩], false⟩]⟩
  arguments := []
  attributes := []
  schemaConstructor := none
  functions :=
    [⟨"add", .create, "model", some "d", 0, fnOf "add" [("d", refType true (typeOf "ResourceData"))]
        [letMut "first" (callOf (var "label") [var "other", methodCallOf (var "d") "get" [stringExpr "name"]]),
          letMut "second" (callOf (var "label") [var "d", var "first"])]⟩,
      ⟨"label", .helper, "d", some "d", 0,
        fnOf "label" [("d", refType false (typeOf "ResourceData")), ("name", typeOf "str")]
          [letMut "own" (methodCallOf (var "d") "get" [stringExpr "name"])]⟩]
  create := "add"
  read := "show"
  update := none
  delete := "drop"
  passthrough := []

theorem rewriteResource?_labelResource :
    ∃ r' s, rewriteResource? {} labelResource = some (r', s) ∧ s.transformed = ["label"] := by
  have ended : ((rewriteResource? {} labelResource).any (·.2.transformed == ["label"])) = true := by
    decide +kernel
  obtain ⟨⟨r', s⟩, rewritten, transformed⟩ := (Option.any_eq_true _ _).mp ended
  exact ⟨r', s, rewritten, beq_iff_eq.mp transformed⟩

theorem signatures_edited_once_label : (labelResource.functions.map (·.name)).Nodup ∧
    ∃ r' s visits, rewriteResource? {} labelResource = some (r', s) ∧ s.transformed = ["label"] ∧ s.pending = [] ∧
      RunsUntil {} labelResource visits [] r'.functions s ∧
      r'.functions.map heading = labelResource.functions.map fun f =>
        if f.role.isCrud then heading f else edited (firstEdit f.name (calls visits)) (heading f) := by
  have distinct : (labelResource.functions.map (·.name)).Nodup := by decide
  obtain ⟨r', s, rewritten, transformed⟩ := rewriteResource?_labelResource
  obtain ⟨-, between, after⟩ := @signatures_edited_once {} labelResource distinct
  obtain ⟨-, visits, runs, -, headings⟩ := after r' s rewritten
  exact ⟨distinct, r', s, visits, rewritten, transformed, between _ _ _ _ runs, runs, headings⟩

end Retype.Rewrite
