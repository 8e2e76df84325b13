import Retype.Proofs.WriteFrame

/-! Names apart from each other.  What is recorded of a name depends on the configuration, on its entry, and on whether
its output can be written; so where no output is in the way of another, a run records of each name what it would record
of that name alone, unless the process dies of one of them: then nothing is recorded of any. -/

namespace Retype
open Retype.Code

namespace Files

/-- Why a text cannot be written to a path, if it cannot. -/
def writeFault? (fs : Files) (path : String) : Option FileError :=
  match fs.write path "" with
  | .ok _ => none
  | .error e => some e

theorem write_map (fs : Files) (path text : String) : (fs.write path text).map (fun _ => ()) =
    match fs.writeFault? path with
    | none => .ok ()
    | some e => .error e := by
  have anyText : ∀ text, (fs.write path text).map (fun _ => ()) = (fs.write path "").map fun _ => () := by
    intro text
    unfold write
    split
    · rfl
    · rfl
    · split
      · rfl
      · split
        · split
          · rfl
          · split <;> rfl
        · rfl
        · rfl
        · rfl
    · rfl
  rw [anyText, writeFault?]
  cases fs.write path "" <;> rfl

/-- How a write to one of the paths ends does not depend on what was written to them before. -/
def Independent (fs : Files) (may : String → Prop) : Prop :=
  ∀ fs', Writes may fs fs' → ∀ path, may path → fs'.writeFault? path = fs.writeFault? path

theorem Leads.names_unique {fs : Files} {path name name' : String} {above above' reached reached' : List String}
    (leads : Leads fs path above reached name) (leads' : Leads fs path above' reached' name') :
    reached = reached' ∧ name = name' := by
  obtain ⟨rfl, rfl⟩ := List.append_singleton_inj.mp (leads.names.symm.trans leads'.names)
  have led := leads.led.symm.trans leads'.led
  exact ⟨(Prod.mk.inj (Except.ok.inj led)).1, rfl⟩

theorem Independent.after {fs fs' : Files} {may : String → Prop} (independent : fs.Independent may)
    (writes : Writes may fs fs') : fs'.Independent may := fun fs'' more path allowed =>
  (independent fs'' (writes.trans more) path allowed).trans (independent fs' writes path allowed).symm

theorem Leads.writeFault?_eq {fs : Files} {path name : String} {above reached : List String}
    (leads : Leads fs path above reached name) : fs.writeFault? path =
      if fs.get? (reached ++ [name]) = some .directory then some .isDirectory else none := by
  rw [writeFault?]
  split
  · rename_i written
    obtain ⟨names, found, -⟩ := write_eq_ok.mp written
    obtain ⟨_, _, _, leads', rfl, file⟩ := target?_eq_some.mp found
    obtain ⟨rfl, rfl⟩ := leads.names_unique leads'
    rw [if_neg file]
  · rename_i failed
    by_cases file : fs.get? (reached ++ [name]) = some .directory
    · rw [write, leads.find_eq, file] at failed
      rw [if_pos file, ← Except.error.inj failed]
    · rw [write_of_target (target?_eq_some.mpr ⟨_, _, _, leads, rfl, file⟩)] at failed
      cases failed

theorem independent_of_leads {fs : Files} {may : String → Prop}
    (leads : ∀ path, may path → ∃ above reached name, Leads fs path above reached name) : fs.Independent may := by
  intro fs' writes path allowed
  obtain ⟨above, reached, name, leads⟩ := leads path allowed
  have same := writes.sameDirectories
  rw [leads.writeFault?_eq, (leads.congr same).writeFault?_eq]
  exact if_congr (same.directory _).symm rfl rfl

end Files

namespace Summary

def append (s t : Summary) : Summary := ⟨s.migrated ++ t.migrated, s.skipped ++ t.skipped⟩

def join (ss : List Summary) : Summary := ⟨ss.flatMap migrated, ss.flatMap skipped⟩

/-- The number of records. -/
def size (s : Summary) : Nat := s.migrated.length + s.skipped.length

theorem size_join {ss : List Summary} (one : ∀ s ∈ ss, s.size = 1) : (join ss).size = ss.length := by
  induction ss with
  | nil => rfl
  | cons s ss ih =>
    obtain ⟨first, rest⟩ := List.forall_mem_cons.mp one
    have later := ih rest
    simp only [size, join, List.flatMap_cons, List.length_append, List.length_cons] at first later ⊢
    omega

theorem empty_append (s : Summary) : append {} s = s := by
  simp [append]

theorem join_concat (ss : List Summary) (s : Summary) : join (ss ++ [s]) = (join ss).append s := by
  simp [join, append]

end Summary

theorem Registry.mem_of_resolve {registry : Registry} {name pre : String} {entry : RegistryEntry}
    (known : registry.resolve name pre = some entry) : ∃ key, (key, entry) ∈ registry := by
  have listed : ∀ {key}, Table.get? registry key = some entry → ∃ key, (key, entry) ∈ registry := by
    intro key here
    obtain ⟨⟨other, _⟩, found, rfl⟩ := Option.map_eq_some_iff.mp here
    exact ⟨other, List.mem_of_find?_eq_some found⟩
  rw [resolve] at known
  cases asked : Table.get? registry name with
  | some _ =>
    rw [asked] at known
    exact listed (asked.trans known)
  | none =>
    rw [asked] at known
    exact listed known

section Run
variable {config : Config} {registry : Registry} {fs fs' : Files}

theorem emit_failed {source : String} {items : Trees} {e : WriteError}
    (failed : emit config fs source items = .error (.failed e)) :
    ∃ cause, fs.writeFault? (Path.output source config.outputSuffix) = some cause ∧
      e = ⟨Path.output source config.outputSuffix, cause⟩ := by
  unfold emit writeCode at failed
  generalize Path.output source config.outputSuffix = path at failed ⊢
  cases printed : Format.code? items with
  | none =>
    rw [printed] at failed
    cases failed
  | some text =>
    have outcome := fs.write_map path text
    cases written : fs.write path text with
    | error cause =>
      simp only [printed, written, Except.mapError, bind, Except.bind, Except.map, Except.error.injEq,
        Halt.failed.injEq] at failed
      cases fault : fs.writeFault? path with
      | none => simp [written, fault, Except.map] at outcome
      | some cause' =>
        obtain rfl : cause = cause' := by simpa [written, fault, Except.map] using outcome
        exact ⟨cause, rfl, failed.symm⟩
    | ok fs' =>
      simp only [printed, written, Except.mapError, bind, Except.bind] at failed
      cases resolved : Imports.resolve (Imports.Known.ofTable config.knownImports) fs' path with
      | ok answer =>
        rw [resolved] at failed
        cases failed
      | error halt =>
        rw [resolved] at failed
        cases halt <;> cases failed

/-- A migration fails or dies before it comes to the files, or it fails because its output cannot be written, and for
no other reason. -/
theorem migrateEntry_failed (config : Config) (entry : RegistryEntry) :
    (∃ e, ∀ fs, migrateEntry config fs entry = .error (.failed e)) ∨
    (∀ fs, migrateEntry config fs entry = .error (.died fs)) ∨
    ∃ items, Admitted config entry items ∧ ∀ fs e, migrateEntry config fs entry = .error (.failed e) →
      ∃ cause, fs.writeFault? (Path.output entry.path config.outputSuffix) = some cause ∧
        e = .write ⟨Path.output entry.path config.outputSuffix, cause⟩ := by
  rcases migrateEntry_stages config entry with ⟨e, failed⟩ | died | ⟨items, unresolved, admitted, written⟩
  · exact .inl ⟨e, fun fs => (failed fs).1⟩
  · exact .inr (.inl fun fs => (died fs).1)
  · refine .inr (.inr ⟨items, admitted, fun fs e failed => ?_⟩)
    rw [(written fs).2] at failed
    cases emitted : emit config fs entry.path items with
    | ok answer =>
      rw [emitted] at failed
      cases failed
    | error halt =>
      rw [emitted] at failed
      cases halt with
      | failed e' =>
        cases failed
        obtain ⟨cause, fault, rfl⟩ := emit_failed emitted
        exact ⟨cause, fault, rfl⟩
      | died left => cases failed

theorem Summary.addSkipped_inj {s : Summary} {name a b : String}
    (same : some (s.addSkipped ⟨name, a⟩) = some (s.addSkipped ⟨name, b⟩)) : a = b := by
  simpa [Summary.addSkipped] using same

theorem failed_of_skipped {name : String} {entry : RegistryEntry}
    (known : registry.resolve name config.namePrefix = some entry) {s : Summary} {reason : String}
    (skipped : (migrateName config registry fs s name).2 = some (s.addSkipped ⟨name, reason⟩)) :
    ∃ e, migrateEntry config fs entry = .error (.failed e) ∧ reason = e.message := by
  unfold migrateName at skipped
  rw [known] at skipped
  dsimp only at skipped
  cases ends : migrateEntry config fs entry with
  | ok answer =>
    rw [ends] at skipped
    exact absurd (Option.some.inj skipped).symm (Summary.addSkipped_ne_addMigrated _ _ _)
  | error halt =>
    rw [ends] at skipped
    cases halt with
    | failed e => exact ⟨e, rfl, (Summary.addSkipped_inj skipped).symm⟩
    | died left => cases skipped

/-- A name is skipped for the same reason, whatever was recorded before, if its output can be written as before. -/
theorem skip_reason_congr {name : String}
    (same : ∀ path, IsOutput config registry [name] path → fs'.writeFault? path = fs.writeFault? path)
    {s s' : Summary} {reason reason' : String}
    (skipped : (migrateName config registry fs s name).2 = some (s.addSkipped ⟨name, reason⟩))
    (skipped' : (migrateName config registry fs' s' name).2 = some (s'.addSkipped ⟨name, reason'⟩)) :
    reason' = reason := by
  cases known : registry.resolve name config.namePrefix with
  | none =>
    unfold migrateName at skipped skipped'
    rw [known] at skipped skipped'
    exact (Summary.addSkipped_inj skipped').symm.trans (Summary.addSkipped_inj skipped)
  | some entry =>
    obtain ⟨e, fails, rfl⟩ := failed_of_skipped known skipped
    obtain ⟨e', fails', rfl⟩ := failed_of_skipped known skipped'
    rcases migrateEntry_failed config entry with ⟨cause, failed⟩ | died | ⟨items, admitted, atWrite⟩
    · rw [failed fs] at fails
      rw [failed fs'] at fails'
      cases fails
      cases fails'
      rfl
    · rw [died fs] at fails
      cases fails
    · obtain ⟨cause, fault, rfl⟩ := atWrite fs e fails
      obtain ⟨cause', fault', rfl⟩ := atWrite fs' e' fails'
      rw [same _ ⟨name, List.mem_singleton.mpr rfl, entry, items, known, admitted, rfl⟩, fault] at fault'
      rw [Option.some.inj fault']

theorem migrateName_record (directories : Files.SameDirectories fs fs') {name : String}
    (same : ∀ path, IsOutput config registry [name] path → fs'.writeFault? path = fs.writeFault? path) (s : Summary) :
    (migrateName config registry fs' s name).2 = (migrate config registry fs [name]).2.map s.append := by
  have alone : migrate config registry fs [name] = migrateName config registry fs {} name := rfl
  obtain ⟨left, -, step⟩ := migrateName_cases config registry fs {} name
  obtain ⟨left', -, step'⟩ := migrateName_cases config registry fs' s name
  rw [← fateOf_congr config registry directories] at step'
  rw [alone]
  cases fate : fateOf config registry fs name with
  | skipped =>
    rw [fate] at step step'
    obtain ⟨reason, step⟩ := step
    obtain ⟨reason', step'⟩ := step'
    obtain rfl := skip_reason_congr same (congrArg Prod.snd step) (congrArg Prod.snd step')
    rw [step, step']
    simp [Summary.append, Summary.addSkipped]
  | migrated l =>
    rw [fate] at step step'
    dsimp only at step step'
    rw [step, step']
    simp [Summary.append, Summary.addMigrated]
  | died mark? =>
    rw [fate] at step step'
    dsimp only at step step'
    rw [step, step', Option.map_none]

theorem migrate_singleton_congr (directories : Files.SameDirectories fs fs') {name : String}
    (same : ∀ path, IsOutput config registry [name] path → fs'.writeFault? path = fs.writeFault? path) :
    (migrate config registry fs' [name]).2 = (migrate config registry fs [name]).2 := by
  have alone : migrate config registry fs' [name] = migrateName config registry fs' {} name := rfl
  have nothing : Summary.append {} = id := funext Summary.empty_append
  rw [alone, migrateName_record directories same, nothing, Option.map_id_fun, id_eq]

theorem migrate_singleton_cases {name : String} {s : Summary} (recorded : (migrate config registry fs [name]).2 = some s) :
    (∃ m, s = ⟨[m], []⟩) ∨ ∃ reason, s = ⟨[], [⟨name, reason⟩]⟩ := by
  have alone : migrate config registry fs [name] = migrateName config registry fs {} name := rfl
  obtain ⟨left, -, step⟩ := migrateName_cases config registry fs {} name
  rw [alone] at recorded
  cases fate : fateOf config registry fs name with
  | skipped =>
    rw [fate] at step
    obtain ⟨reason, step⟩ := step
    rw [step] at recorded
    exact .inr ⟨reason, (Option.some.inj recorded).symm⟩
  | migrated l =>
    rw [fate] at step
    dsimp only at step
    rw [step] at recorded
    exact .inl ⟨l.migrated, (Option.some.inj recorded).symm⟩
  | died mark? =>
    rw [fate] at step
    dsimp only at step
    rw [step] at recorded
    cases recorded

/-- Where outputs can be written independently of each other, the summary of a run is made of what is recorded of each
name alone, in order; there is none if one of them has none. -/
theorem migrate_summary_eq_join {names : List String} (independent : fs.Independent (IsOutput config registry names)) :
    (migrate config registry fs names).2 =
      (names.mapM fun name => (migrate config registry fs [name]).2).map Summary.join := by
  -- from the last name on, whose output is written over what the ones before have left
  induction names using List.reverseRecOn with
  | nil => rfl
  | append_singleton names name ih =>
    have earlier : names ⊆ names ++ [name] := List.subset_append_left _ _
    have last : [name] ⊆ names ++ [name] := List.subset_append_right _ _
    have before := ih fun fs' writes path output =>
      independent fs' (writes.mono fun _ => IsOutput.mono earlier) path (output.mono earlier)
    have same : ∀ path, IsOutput config registry [name] path →
        (migrate config registry fs names).1.writeFault? path = fs.writeFault? path := fun path output =>
      independent _ ((writes_migrate config registry fs names).mono fun _ => IsOutput.mono earlier) path
        (output.mono last)
    rw [List.mapM_append, List.mapM_cons, List.mapM_nil]
    cases records : names.mapM fun name => (migrate config registry fs [name]).2 with
    | none =>
      rw [records, Option.map_none] at before
      rw [migrate_concat_of_dead config registry before, before]
      rfl
    | some ss =>
      rw [records, Option.map_some] at before
      rw [migrate_concat_of_alive config registry before,
        migrateName_record (sameDirectories_migrate config registry fs names) same]
      cases (migrate config registry fs [name]).2 with
      | none => rfl
      | some s => exact congrArg some (Summary.join_concat ss s).symm

/-- A run makes one record for each name, the one that it makes of that name alone, in the order of the names. -/
def RecordsAlone (config : Config) (registry : Registry) (fs : Files) (names : List String) : Prop :=
  ∃ records, List.Forall₂ (fun name r => (migrate config registry fs [name]).2 = some r ∧
      ((∃ m, r = ⟨[m], []⟩) ∨ ∃ reason, r = ⟨[], [⟨name, reason⟩]⟩)) names records ∧
    (migrate config registry fs names).2 = some (Summary.join records) ∧
    (Summary.join records).migrated.length + (Summary.join records).skipped.length = names.length

/-- If no output is in the way of another, a run records of each name what it records of that name alone, whatever
names come before or after it, exactly if the process dies of none of them; and if it dies of one, nothing is recorded
of any. -/
theorem run_records_names_alone_iff (config : Config) (registry : Registry) (fs : Files) {names : List String}
    (independent : fs.Independent (IsOutput config registry names)) :
    (RecordsAlone config registry fs names ↔ ∀ name ∈ names, (fateOf config registry fs name).survives = true) ∧
    ((∃ name ∈ names, (fateOf config registry fs name).survives = false) →
      (migrate config registry fs names).2 = none) := by
  have survived := isSome_migrate_iff config registry fs names
  refine ⟨⟨fun ⟨_, _, recorded, _⟩ => survived.mp (Option.isSome_of_eq_some recorded), fun survives => ?_⟩,
    fun ⟨name, mem, dies⟩ => ?_⟩
  · obtain ⟨summary, returns⟩ := Option.isSome_iff_exists.mp (survived.mpr survives)
    have joined := migrate_summary_eq_join independent
    rw [returns] at joined
    obtain ⟨records, alone, rfl⟩ := Option.map_eq_some_iff.mp joined.symm
    have each := mapM_eq_some_iff.mp alone
    have one : List.Forall₂ (fun name r => (migrate config registry fs [name]).2 = some r ∧
        ((∃ m, r = ⟨[m], []⟩) ∨ ∃ reason, r = ⟨[], [⟨name, reason⟩]⟩)) names records :=
      each.imp fun name r recorded => ⟨recorded, migrate_singleton_cases recorded⟩
    refine ⟨records, one, returns, ?_⟩
    have size : (Summary.join records).size = records.length := Summary.size_join fun r mem => ?_
    · rw [each.length_eq]
      exact size
    · obtain ⟨name, -, -, ⟨m, rfl⟩ | ⟨reason, rfl⟩⟩ := exists_of_forall₂_right one mem <;> rfl
  · rw [← Option.not_isSome_iff_eq_none, survived]
    intro survives
    rw [survives name mem] at dies
    cases dies

theorem independent_outputs {names : List String} (targets : ∀ name ∈ names, ∀ entry,
      registry.resolve name config.namePrefix = some entry →
        (fs.target? (Path.output entry.path config.outputSuffix)).isSome = true) :
    fs.Independent (IsOutput config registry names) := by
  refine Files.independent_of_leads fun path ⟨name, mem, entry, _, known, _, output⟩ => ?_
  obtain ⟨file, found⟩ := Option.isSome_iff_exists.mp (targets name mem entry known)
  obtain ⟨above, reached, last, leads, -⟩ := Files.target?_eq_some.mp found
  exact ⟨above, reached, last, output ▸ leads⟩

end Run

/-- One resource is asked for twice, with an unknown one in between. -/
theorem tag_recorded_alone :
    Files.Independent tagFiles (IsOutput tagConfig tagRegistry ["tag", "missing", "tag"]) ∧
    RecordsAlone tagConfig tagRegistry tagFiles ["tag", "missing", "tag"] := by
  have independent : Files.Independent tagFiles (IsOutput tagConfig tagRegistry ["tag", "missing", "tag"]) := by
    refine independent_outputs fun name _ entry known => ?_
    obtain ⟨_, listed⟩ := Registry.mem_of_resolve known
    rw [tagRegistry_eq] at listed
    obtain ⟨-, rfl⟩ := Prod.mk.inj (List.mem_singleton.mp listed)
    decide +kernel
  have unknown : (fateOf tagConfig tagRegistry tagFiles "missing").survives = true := by
    rw [fateOf, tagRegistry_eq]
    rfl
  refine ⟨independent, (run_records_names_alone_iff tagConfig tagRegistry tagFiles independent).1.mpr ?_⟩
  simp only [List.forall_mem_cons, List.not_mem_nil, IsEmpty.forall_iff, implies_true, tag_survives, unknown, and_self]

end Retype
