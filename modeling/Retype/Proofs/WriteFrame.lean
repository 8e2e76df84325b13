import Retype.Proofs.Outputs

/-! What a run may write.  Of each name that is asked for a run writes one file at most, the output of its entry, once
with the typed code and perhaps once more with its imports fixed.  It comes to that only if nothing is wrong with
the configuration and the resource is analysed, rewritten and assembled, so a name that fails before leaves all as it
was. -/

namespace Retype
open Retype.Code

namespace Files

/-- What is left of files when texts are written, one after another, to paths of some kind. -/
inductive Writes (may : String → Prop) (fs : Files) : Files → Prop
  | none : Writes may fs fs
  | write {fs' fs'' : Files} {path text : String} (before : Writes may fs fs') (allowed : may path)
      (written : fs'.write path text = .ok fs'') : Writes may fs fs''

theorem wrote_of_write {fs fs' : Files} {path text : String} (written : fs.write path text = .ok fs') :
    ∃ file, fs.target? path = some file ∧ Wrote file text fs fs' := by
  obtain ⟨file, found, rfl⟩ := write_eq_ok.mp written
  exact ⟨file, found, wrote_put (target?_file found) text⟩

theorem sameDirectories_of_write {fs fs' : Files} {path text : String} (written : fs.write path text = .ok fs') :
    SameDirectories fs fs' := by
  obtain ⟨file, found, wrote⟩ := wrote_of_write written
  exact wrote.sameDirectories (target?_file found)

namespace Writes
variable {may : String → Prop} {fs fs' fs'' : Files}

theorem sameDirectories (h : Writes may fs fs') : SameDirectories fs fs' := by
  induction h with
  | none => exact .refl fs
  | write _ _ written ih => exact ih.trans (sameDirectories_of_write written)

theorem trans (first : Writes may fs fs') (second : Writes may fs' fs'') : Writes may fs fs'' := by
  induction second with
  | none => exact first
  | write _ allowed written ih => exact .write ih allowed written

theorem mono {may' : String → Prop} (wider : ∀ path, may path → may' path) (h : Writes may fs fs') :
    Writes may' fs fs' := by
  induction h with
  | none => exact .none
  | write _ allowed written ih => exact .write ih (wider _ allowed) written

theorem get?_eq (h : Writes may fs fs') (file : List String) :
    fs'.get? file = fs.get? file ∨ ∃ path, may path ∧ fs.target? path = some file := by
  induction h with
  | none => exact .inl rfl
  | @write fs₁ _ path _ before allowed written ih =>
    obtain ⟨target, found, wrote⟩ := wrote_of_write written
    by_cases here : file = target
    · subst here
      exact .inr ⟨path, allowed, (target?_congr before.sameDirectories path).trans found⟩
    · rw [wrote.elsewhere file here]
      exact ih

end Writes
end Files

theorem Imports.resolve_writes {known : Known} {fs fs' : Files} {path : String} {changes : Nat}
    (resolved : resolve known fs path = .ok (fs', changes)) : fs' = fs ∨ ∃ text, fs.write path text = .ok fs' := by
  unfold resolve at resolved
  split at resolved
  · cases resolved
  · dsimp only at resolved
    split at resolved
    · cases resolved
    · split at resolved
      · cases resolved
        exact .inl rfl
      · split at resolved
        · cases resolved
        · rename_i text _
          cases written : fs.write path text with
          | error e =>
            rw [written] at resolved
            cases resolved
          | ok fs'' =>
            rw [written] at resolved
            cases resolved
            exact .inr ⟨text, written⟩

theorem Imports.eq_of_resolve_died {known : Known} {fs left : Files} {path : String}
    (died : resolve known fs path = .error (.died left)) : left = fs := by
  unfold resolve at died
  split at died
  · cases died
  · dsimp only at died
    split at died
    · cases died
      rfl
    · split at died
      · cases died
      · split at died
        · cases died
          rfl
        · rename_i text _
          cases written : fs.write path text <;> rw [written] at died <;> cases died

/-- A text is written to a path, and then perhaps another one in its place. -/
def Files.WritesAt (path : String) (fs fs' : Files) : Prop :=
  ∃ text written, fs.write path text = .ok written ∧ (fs' = written ∨ ∃ fixed, written.write path fixed = .ok fs')

theorem Files.WritesAt.writes {path : String} {fs fs' : Files} (h : WritesAt path fs fs') {may : String → Prop}
    (allowed : may path) : Writes may fs fs' := by
  obtain ⟨text, written, first, rfl | ⟨fixed, second⟩⟩ := h
  · exact .write .none allowed first
  · exact .write (.write .none allowed first) allowed second

section Emit
variable {config : Config} {fs : Files} {source : String} {items : Trees}

theorem writesAt_of_emit {fs' : Files} {output : String} (emitted : emit config fs source items = .ok (fs', output)) :
    Files.WritesAt (Path.output source config.outputSuffix) fs fs' := by
  unfold emit writeCode at emitted
  generalize Path.output source config.outputSuffix = path at emitted ⊢
  cases printed : Format.code? items with
  | none => simp only [printed, throw, throwThe, MonadExceptOf.throw, Except.map, reduceCtorEq] at emitted
  | some text =>
    cases first : fs.write path text with
    | error e => simp [printed, first, Except.mapError, bind, Except.bind, Except.map] at emitted
    | ok written =>
      simp only [printed, first, Except.mapError, bind, Except.bind] at emitted
      refine ⟨text, written, first, ?_⟩
      cases resolved : Imports.resolve (Imports.Known.ofTable config.knownImports) written path with
      | ok answer =>
        rw [resolved] at emitted
        cases emitted
        exact Imports.resolve_writes resolved
      | error halt =>
        rw [resolved] at emitted
        cases halt with
        | failed e =>
          cases emitted
          exact .inl rfl
        | died left => cases emitted

theorem emit_died {left : Files} (died : emit config fs source items = .error (.died left)) :
    left = fs ∨ ∃ text, fs.write (Path.output source config.outputSuffix) text = .ok left := by
  unfold emit writeCode at died
  generalize Path.output source config.outputSuffix = path at died ⊢
  cases printed : Format.code? items with
  | none =>
    rw [printed] at died
    cases died
    exact .inl rfl
  | some text =>
    cases first : fs.write path text with
    | error e => simp [printed, first, Except.mapError, bind, Except.bind, Except.map] at died
    | ok written =>
      simp only [printed, first, Except.mapError, bind, Except.bind] at died
      cases resolved : Imports.resolve (Imports.Known.ofTable config.knownImports) written path with
      | ok answer =>
        rw [resolved] at died
        cases died
      | error halt =>
        rw [resolved] at died
        cases halt with
        | failed e => cases died
        | died left' =>
          cases died
          exact .inr ⟨text, (Imports.eq_of_resolve_died resolved).symm ▸ first⟩

end Emit

section Run
variable (config : Config) (registry : Registry) (fs : Files)

/-- The paths that a run over names may write to: the outputs of their entries that come through every check. -/
def IsOutput (names : List String) (path : String) : Prop :=
  ∃ name ∈ names, ∃ entry items, registry.resolve name config.namePrefix = some entry ∧ Admitted config entry items ∧
    path = Path.output entry.path config.outputSuffix

/-- What one name writes: its output, or nothing with the reason recorded; and if the process dies of it, nothing, or its
output with the imports as they were. -/
theorem migrateName_writes (s : Summary) (name : String) :
    (∃ path m, IsOutput config registry [name] path ∧
      (migrateName config registry fs s name).2 = some (s.addMigrated m) ∧
      Files.WritesAt path fs (migrateName config registry fs s name).1) ∨
    (∃ reason, migrateName config registry fs s name = (fs, some (s.addSkipped ⟨name, reason⟩))) ∨
    ((migrateName config registry fs s name).2 = none ∧ ((migrateName config registry fs s name).1 = fs ∨
      ∃ path text, IsOutput config registry [name] path ∧
        fs.write path text = .ok (migrateName config registry fs s name).1)) := by
  unfold migrateName
  cases known : registry.resolve name config.namePrefix with
  | none => exact .inr (.inl ⟨_, rfl⟩)
  | some entry =>
    dsimp only
    rcases migrateEntry_stages config entry with ⟨e, failed⟩ | died | ⟨items, unresolved, admitted, written⟩
    · rw [(failed fs).1]
      exact .inr (.inl ⟨_, rfl⟩)
    · rw [(died fs).1]
      exact .inr (.inr ⟨rfl, .inl rfl⟩)
    · have output : IsOutput config registry [name] (Path.output entry.path config.outputSuffix) :=
        ⟨name, List.mem_singleton.mpr rfl, entry, items, known, admitted, rfl⟩
      rw [(written fs).2]
      cases emitted : emit config fs entry.path items with
      | ok answer => exact .inl ⟨_, _, output, rfl, writesAt_of_emit emitted⟩
      | error halt =>
        cases halt with
        | failed e => exact .inr (.inl ⟨_, rfl⟩)
        | died left =>
          refine .inr (.inr ⟨rfl, ?_⟩)
          rcases emit_died emitted with same | ⟨text, once⟩
          · exact .inl same
          · exact .inr ⟨_, text, output, once⟩

theorem IsOutput.mono {config : Config} {registry : Registry} {names more : List String} (sub : names ⊆ more)
    {path : String} : IsOutput config registry names path → IsOutput config registry more path :=
  fun ⟨name, mem, output⟩ => ⟨name, sub mem, output⟩

theorem writes_migrate (names : List String) :
    Files.Writes (IsOutput config registry names) fs (migrate config registry fs names).1 := by
  induction names using List.reverseRecOn with
  | nil => exact .none
  | append_singleton names name ih =>
    have before : Files.Writes (IsOutput config registry (names ++ [name])) fs (migrate config registry fs names).1 :=
      ih.mono fun path => IsOutput.mono (List.subset_append_left _ _)
    have last {path : String} : IsOutput config registry [name] path → IsOutput config registry (names ++ [name]) path :=
      IsOutput.mono (List.subset_append_right _ _)
    cases alive : (migrate config registry fs names).2 with
    | none => rwa [migrate_concat_of_dead config registry alive]
    | some s =>
      rw [migrate_concat_of_alive config registry alive]
      rcases migrateName_writes config registry (migrate config registry fs names).1 s name with
        ⟨path, m, output, -, writes⟩ | ⟨reason, step⟩ | ⟨-, same | ⟨path, text, output, written⟩⟩
      · exact before.trans (writes.writes (last output))
      · rwa [step]
      · rwa [same]
      · exact .write before (last output) written

/-- Why a name comes to no write: there is no entry for it, or its entry fails one of the checks. -/
inductive Refused (name : String) : Prop
  | unknown (missing : registry.resolve name config.namePrefix = none)
  | config {e : ConfigError} (fault : config.fault? = some e)
  | analysis {entry : RegistryEntry} {e : AnalysisError} (known : registry.resolve name config.namePrefix = some entry)
      (failed : Resource.ofEntry config entry = .error e)
  | unresolved {entry : RegistryEntry} {resource rewritten : Resource} {state : Rewrite.State}
      (known : registry.resolve name config.namePrefix = some entry)
      (analysed : Resource.ofEntry config entry = .ok resource)
      (rewrites : Rewrite.rewriteResource? config resource = some (rewritten, state)) (strict : config.strict = true)
      (left : state.unresolved ≠ [])
  | assembly {entry : RegistryEntry} {resource rewritten : Resource} {state : Rewrite.State} {e : AssemblyError}
      (known : registry.resolve name config.namePrefix = some entry)
      (analysed : Resource.ofEntry config entry = .ok resource)
      (rewrites : Rewrite.rewriteResource? config resource = some (rewritten, state))
      (failed : TypedFile.items config state.promoted rewritten = .error e)

theorem Refused.not_isOutput {config : Config} {registry : Registry} {name : String}
    (refused : Refused config registry name) (path : String) : ¬ IsOutput config registry [name] path := by
  rintro ⟨_, mem, entry, items, known, admitted, -⟩
  obtain rfl := List.mem_singleton.mp mem
  obtain ⟨sound, analysed, rewrites, resolved, assembled⟩ := admitted
  cases refused with
  | unknown missing =>
    rw [known] at missing
    cases missing
  | config fault =>
    rw [sound] at fault
    cases fault
  | analysis known' failed =>
    obtain rfl := Option.some.inj (known.symm.trans known')
    rw [analysed] at failed
    cases failed
  | unresolved known' analysed' rewrites' strict left =>
    obtain rfl := Option.some.inj (known.symm.trans known')
    obtain rfl := Except.ok.inj (analysed.symm.trans analysed')
    cases rewrites.symm.trans rewrites'
    exact left (resolved strict)
  | assembly known' analysed' rewrites' failed =>
    obtain rfl := Option.some.inj (known.symm.trans known')
    obtain rfl := Except.ok.inj (analysed.symm.trans analysed')
    cases rewrites.symm.trans rewrites'
    rw [assembled] at failed
    cases failed

theorem Refused.fateOf_eq {config : Config} {registry : Registry} {name : String}
    (refused : Refused config registry name) (fs : Files) : fateOf config registry fs name = .skipped := by
  rw [fateOf]
  cases known : registry.resolve name config.namePrefix with
  | none => rfl
  | some entry =>
    dsimp only
    rw [Fate.ofEntry]
    cases refused with
    | unknown missing =>
      rw [known] at missing
      cases missing
    | config fault => rw [fault]
    | analysis known' failed =>
      obtain rfl := Option.some.inj (known.symm.trans known')
      rw [failed]
      cases config.fault? <;> rfl
    | unresolved known' analysed rewrites strict left =>
      obtain rfl := Option.some.inj (known.symm.trans known')
      cases config.fault? with
      | some e => rfl
      | none => simp only [analysed, rewrites, strict, Bool.true_and, Bool.not_eq_true', List.isEmpty_eq_false_iff, ne_eq,
          left, not_false_eq_true, if_true]
    | assembly known' analysed rewrites failed =>
      obtain rfl := Option.some.inj (known.symm.trans known')
      cases config.fault? with
      | some e => rfl
      | none => simp only [analysed, rewrites, failed, ite_self]

/-- The process dies where a run is taken one name further, before the output of that name is written or after. -/
def Dies (config : Config) (registry : Registry) (run : List String → Files × Option Summary) (before : List String)
    (name : String) : Prop :=
  (run (before ++ [name])).2 = none ∧ ((run (before ++ [name])).1 = (run before).1 ∨
    ∃ path text, IsOutput config registry [name] path ∧ (run before).1.write path text = .ok (run (before ++ [name])).1)

theorem migrate_concat_writes {before : List String} (alive : (migrate config registry fs before).2.isSome = true)
    (name : String) : Skips (migrate config registry fs) before name ∨
      (∃ path m, IsOutput config registry [name] path ∧ Migrates (migrate config registry fs) before name m ∧
        Files.WritesAt path (migrate config registry fs before).1 (migrate config registry fs (before ++ [name])).1) ∨
      Dies config registry (migrate config registry fs) before name := by
  obtain ⟨s, alive⟩ := Option.isSome_iff_exists.mp alive
  have step := migrate_concat_of_alive config registry alive name
  rw [Dies, step]
  rcases migrateName_writes config registry (migrate config registry fs before).1 s name with
    ⟨path, m, output, migrated, writes⟩ | ⟨reason, skipped⟩ | died
  · exact .inr (.inl ⟨path, m, output, ⟨s, alive, step ▸ migrated⟩, writes⟩)
  · rw [skipped] at step
    exact .inl ⟨by rw [step], s, reason, alive, by rw [step]⟩
  · exact .inr (.inr died)

/-- A run changes no file but the outputs of requested entries that come through every check.  A name that is refused
before has no output, is skipped and changes nothing, after any others; one that is not writes its output and nothing else, once or
twice, or is skipped and changes nothing; and if the process dies of it, its output is written once or nothing is, and
nothing follows.  Where imports are fixed, it is by a write to the file that they are in. -/
theorem run_changes_outputs_only (names : List String) :
    (∀ file, (migrate config registry fs names).1.get? file = fs.get? file ∨
      ∃ path, IsOutput config registry names path ∧ fs.target? path = some file) ∧
    (∀ before name, Refused config registry name → (∀ path, ¬ IsOutput config registry [name] path) ∧
      (migrate config registry fs (before ++ [name])).1 = (migrate config registry fs before).1 ∧
      ((migrate config registry fs before).2.isSome = true → Skips (migrate config registry fs) before name)) ∧
    (∀ before name, (migrate config registry fs before).2.isSome = true →
      Skips (migrate config registry fs) before name ∨
      (∃ path m, IsOutput config registry [name] path ∧ Migrates (migrate config registry fs) before name m ∧
        Files.WritesAt path (migrate config registry fs before).1 (migrate config registry fs (before ++ [name])).1) ∨
      Dies config registry (migrate config registry fs) before name) ∧
    (∀ before name, (migrate config registry fs before).2 = none →
      migrate config registry fs (before ++ [name]) = migrate config registry fs before) ∧
    ∀ known files path,
      (∀ files' changes, Imports.resolve known files path = .ok (files', changes) →
        files' = files ∨ ∃ text, files.write path text = .ok files') ∧
      ∀ left, Imports.resolve known files path = .error (.died left) → left = files := by
  refine ⟨(writes_migrate config registry fs names).get?_eq, fun before name refused =>
      ⟨refused.not_isOutput, ?_, fun alive => skips_of_skipped config registry fs alive (refused.fateOf_eq fs)⟩,
    fun before name alive => migrate_concat_writes config registry fs alive name,
    fun before name dead => migrate_concat_of_dead config registry dead name,
    fun known files path => ⟨fun _ _ => Imports.resolve_writes, fun _ => Imports.eq_of_resolve_died⟩⟩
  cases alive : (migrate config registry fs before).2 with
  | none => rw [migrate_concat_of_dead config registry alive]
  | some s => exact (skips_of_skipped config registry fs (Option.isSome_of_eq_some alive) (refused.fateOf_eq fs)).1

end Run

end Retype
