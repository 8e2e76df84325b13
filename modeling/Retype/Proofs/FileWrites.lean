import Retype.Files
import Mathlib.Data.List.Basic

/-! Where a text goes.  The directories alone decide which file a path leads to, and a write leaves them as they
are, so a write does not depend on the writes before it. -/

namespace Retype.Files

theorem get?_outside {fs : Files} {names : List String} (apart : ¬ names <+: fs.cwd) :
    fs.get? names = (fs.entries.find? (·.1 == names)).map (·.2) := by
  rw [get?, if_neg (by simpa using apart)]

theorem get?_above {fs : Files} {names : List String} (above : names <+: fs.cwd) :
    fs.get? names = some .directory := by
  rw [get?, if_pos (by simpa using above)]

theorem outside_of_file {fs : Files} {names : List String} (file : fs.get? names ≠ some .directory) :
    ¬ names <+: fs.cwd := fun above => file (get?_above above)

/-- The entries with a new one in the place of those of its names. -/
def replaced (names : List String) (e : Entry) (entries : List (List String × Entry)) : List (List String × Entry) :=
  entries.map fun (n, old) => if n == names then (n, e) else (n, old)

theorem put_eq (fs : Files) (names : List String) (e : Entry) :
    fs.put names e = if fs.entries.any (·.1 == names) then { fs with entries := replaced names e fs.entries }
      else { fs with entries := fs.entries ++ [(names, e)] } := rfl

@[simp] theorem cwd_put (fs : Files) (names : List String) (e : Entry) : (fs.put names e).cwd = fs.cwd := by
  rw [put_eq]
  split <;> rfl

theorem find?_replaced (names other : List String) (e : Entry) (entries : List (List String × Entry)) :
    ((replaced names e entries).find? (·.1 == other)).map (·.2) =
      if other = names then (entries.find? (·.1 == other)).map fun _ => e
      else (entries.find? (·.1 == other)).map (·.2) := by
  induction entries with
  | nil => simp [replaced]
  | cons entry entries ih =>
    obtain ⟨n, old⟩ := entry
    have step : replaced names e ((n, old) :: entries) =
        (n, if n = names then e else old) :: replaced names e entries := by
      by_cases same : n = names <;> simp [replaced, same]
    rw [step, List.find?_cons, List.find?_cons]
    by_cases here : n = other
    · subst here
      by_cases same : n = names <;> simp [same]
    · have skipped : (n == other) = false := by simpa using here
      simpa only [skipped] using ih

theorem get?_put_self {fs : Files} {names : List String} (apart : ¬ names <+: fs.cwd) (e : Entry) :
    (fs.put names e).get? names = some e := by
  rw [get?_outside (by rwa [cwd_put]), put_eq]
  split
  · rename_i known
    obtain ⟨entry, mem, same⟩ := List.any_eq_true.mp known
    have found : (fs.entries.find? (·.1 == names)).isSome := List.find?_isSome.mpr ⟨entry, mem, same⟩
    rw [find?_replaced, if_pos rfl, Option.eq_some_of_isSome found]
    rfl
  · rename_i unknown
    have absent : fs.entries.find? (·.1 == names) = none :=
      List.find?_eq_none.mpr fun entry mem same => unknown (List.any_eq_true.mpr ⟨entry, mem, same⟩)
    simp [List.find?_append, absent]

theorem get?_put_of_ne (fs : Files) {names other : List String} (ne : other ≠ names) (e : Entry) :
    (fs.put names e).get? other = fs.get? other := by
  by_cases above : other <+: fs.cwd
  · rw [get?_above above, get?_above (by rwa [cwd_put])]
  · rw [get?_outside above, get?_outside (by rwa [cwd_put]), put_eq]
    split
    · rw [find?_replaced, if_neg ne]
    · have skipped : (names == other) = false := by simpa using Ne.symm ne
      simp [List.find?_append, skipped]

/-- One file holds a new text, and nothing else is changed. -/
structure Wrote (names : List String) (text : String) (fs fs' : Files) : Prop where
  cwd : fs'.cwd = fs.cwd
  here : fs'.get? names = some (.file (.text text))
  elsewhere : ∀ other, other ≠ names → fs'.get? other = fs.get? other

theorem wrote_put {fs : Files} {names : List String} (file : fs.get? names ≠ some .directory) (text : String) :
    Wrote names text fs (fs.put names (.file (.text text))) :=
  ⟨cwd_put fs names _, get?_put_self (outside_of_file file) _, fun _ ne => get?_put_of_ne fs ne _⟩

theorem Wrote.again {names : List String} {text text' : String} {fs fs' fs'' : Files} (first : Wrote names text fs fs')
    (second : Wrote names text' fs' fs'') : Wrote names text' fs fs'' :=
  ⟨second.cwd.trans first.cwd, second.here, fun other ne => (second.elsewhere other ne).trans (first.elsewhere other ne)⟩

/-- The same names are directories, and one of them is the working directory of both. -/
structure SameDirectories (fs fs' : Files) : Prop where
  cwd : fs'.cwd = fs.cwd
  directory (names : List String) : fs.get? names = some .directory ↔ fs'.get? names = some .directory

theorem SameDirectories.refl (fs : Files) : SameDirectories fs fs := ⟨rfl, fun _ => .rfl⟩

theorem SameDirectories.symm {fs fs' : Files} (same : SameDirectories fs fs') : SameDirectories fs' fs :=
  ⟨same.cwd.symm, fun names => (same.directory names).symm⟩

theorem SameDirectories.trans {fs fs' fs'' : Files} (first : SameDirectories fs fs')
    (second : SameDirectories fs' fs'') : SameDirectories fs fs'' :=
  ⟨second.cwd.trans first.cwd, fun names => (first.directory names).trans (second.directory names)⟩

theorem SameDirectories.start {fs fs' : Files} (same : SameDirectories fs fs') (path : String) :
    fs'.start path = fs.start path := by
  rw [Files.start, Files.start, same.cwd]

theorem Wrote.sameDirectories {names : List String} {text : String} {fs fs' : Files} (wrote : Wrote names text fs fs')
    (file : fs.get? names ≠ some .directory) : SameDirectories fs fs' := by
  refine ⟨wrote.cwd, fun other => ?_⟩
  by_cases here : other = names
  · subst here
    simp [wrote.here, file]
  · rw [wrote.elsewhere other here]

/-- Where a name leads from a directory. -/
def enter (base : List String) (name : String) : List String :=
  if name == ".." then base.dropLast else base ++ [name]

theorem enter_up (base : List String) : enter base ".." = base.dropLast := rfl

theorem enter_down (base : List String) {name : String} (down : name ≠ "..") : enter base name = base ++ [name] := by
  simp [enter, down]

theorem follow_nil (fs : Files) (base : List String) :
    fs.follow base [] = match fs.get? base with
      | some e => .ok (base, e)
      | none => .error .notFound := by
  cases found : fs.get? base <;> simp only [follow, found]

theorem follow_cons (fs : Files) (base : List String) (name : String) (rest : List String) :
    fs.follow base (name :: rest) = match fs.get? base with
      | some .directory => fs.follow (enter base name) rest
      | some (.file _) => .error .notDirectory
      | none => .error .notFound := by
  rw [follow, enter]
  cases fs.get? base with
  | none => rfl
  | some e =>
    cases e with
    | directory => exact (apply_ite (fs.follow · rest) _ _ _).symm
    | file c => rfl

theorem follow_nil_eq_directory {fs : Files} {base reached : List String} :
    fs.follow base [] = .ok (reached, .directory) ↔ base = reached ∧ fs.get? base = some .directory := by
  rw [follow_nil]
  cases fs.get? base <;> simp

theorem follow_cons_eq_directory {fs : Files} {base rest reached : List String} {name : String} :
    fs.follow base (name :: rest) = .ok (reached, .directory) ↔
      fs.get? base = some .directory ∧ fs.follow (enter base name) rest = .ok (reached, .directory) := by
  rw [follow_cons]
  split <;> simp_all

theorem follow_directory_iff {fs fs' : Files} (same : SameDirectories fs fs') (base rest reached : List String) :
    fs.follow base rest = .ok (reached, .directory) ↔ fs'.follow base rest = .ok (reached, .directory) := by
  induction rest generalizing base with
  | nil => rw [follow_nil_eq_directory, follow_nil_eq_directory, same.directory base]
  | cons name rest ih => rw [follow_cons_eq_directory, follow_cons_eq_directory, same.directory base, ih]

theorem follow_concat (fs : Files) (base rest : List String) (name : String) :
    fs.follow base (rest ++ [name]) = match fs.follow base rest with
      | .ok (reached, .directory) => fs.follow (enter reached name) []
      | .ok (_, .file _) => .error .notDirectory
      | .error e => .error e := by
  induction rest generalizing base with
  | nil =>
    rw [List.nil_append, follow_cons, follow_nil fs base]
    cases fs.get? base with
    | none => rfl
    | some e => cases e <;> rfl
  | cons head rest ih =>
    rw [List.cons_append, follow_cons, follow_cons]
    cases fs.get? base with
    | none => rfl
    | some e =>
      cases e with
      | file c => rfl
      | directory => exact ih (enter base head)

theorem directory_above {fs : Files} {base rest reached : List String}
    (above : ∀ front, front <+: base → front ≠ base → fs.get? front = some .directory)
    (led : fs.follow base rest = .ok (reached, .directory)) {front : List String} (inside : front <+: reached) :
    fs.get? front = some .directory := by
  induction rest generalizing base with
  | nil =>
    obtain ⟨rfl, here⟩ := follow_nil_eq_directory.mp led
    by_cases whole : front = base
    · rw [whole, here]
    · exact above front inside whole
  | cons name rest ih =>
    obtain ⟨here, further⟩ := follow_cons_eq_directory.mp led
    have atBase : ∀ front, front <+: base → fs.get? front = some .directory := fun front inside => by
      by_cases whole : front = base
      · rw [whole, here]
      · exact above front inside whole
    refine ih (fun front inside ne => atBase front ?_) further
    by_cases up : name = ".."
    · rw [up, enter_up] at inside
      exact inside.trans (List.dropLast_prefix base)
    · rw [enter_down base up] at inside ne
      exact (List.prefix_concat_iff.mp inside).resolve_left ne

theorem start_above (fs : Files) (path : String) : fs.start path <+: fs.cwd := by
  rw [start]
  split
  · exact List.nil_prefix
  · exact List.prefix_rfl

theorem prefix_directory {fs : Files} {path : String} {rest reached front : List String}
    (led : fs.follow (fs.start path) rest = .ok (reached, .directory)) (inside : front <+: reached) :
    fs.get? front = some .directory :=
  directory_above (fun _ above _ => get?_above (above.trans (fs.start_above path))) led inside

/-- No file can be meant by a path that is empty or ends in a slash. -/
def isOdd (path : String) : Bool := path.isEmpty || path.toList.getLast? == some '/'

/-- The names of the file that a text written to a path goes to. -/
def target? (fs : Files) (path : String) : Option (List String) :=
  if isOdd path then none
  else
    (Path.names path).getLast?.bind fun name =>
      match fs.follow (fs.start path) (Path.names path).dropLast with
      | .ok (reached, .directory) =>
        if name == ".." || fs.get? (reached ++ [name]) == some .directory then none else some (reached ++ [name])
      | _ => none

/-- A path leads to directories up to its last name. -/
structure Leads (fs : Files) (path : String) (above reached : List String) (name : String) : Prop where
  plain : isOdd path = false
  names : Path.names path = above ++ [name]
  led : fs.follow (fs.start path) above = .ok (reached, .directory)
  down : name ≠ ".."

theorem target?_eq_some {fs : Files} {path : String} {names : List String} :
    fs.target? path = some names ↔ ∃ above reached name, Leads fs path above reached name ∧
      names = reached ++ [name] ∧ fs.get? names ≠ some .directory := by
  constructor
  · intro found
    unfold target? at found
    split at found
    · cases found
    · rename_i plain
      obtain ⟨name, last, found⟩ := Option.bind_eq_some_iff.mp found
      have split := List.dropLast_append_getLast? _ last
      split at found
      · rename_i reached led
        split at found
        · cases found
        · rename_i file
          cases found
          simp only [Bool.or_eq_true, beq_iff_eq, not_or] at file
          exact ⟨_, reached, name, ⟨by simpa using plain, split.symm, led, file.1⟩, rfl, file.2⟩
      · cases found
  · rintro ⟨above, reached, name, leads, rfl, file⟩
    simp [target?, leads.plain, leads.names, leads.led, leads.down, file]

theorem target?_file {fs : Files} {path : String} {names : List String} (found : fs.target? path = some names) :
    fs.get? names ≠ some .directory := by
  obtain ⟨_, _, _, -, -, file⟩ := target?_eq_some.mp found
  exact file

theorem Leads.congr {fs fs' : Files} (same : SameDirectories fs fs') {path : String} {above reached : List String}
    {name : String} (leads : Leads fs path above reached name) : Leads fs' path above reached name :=
  { leads with led := (follow_directory_iff same _ above reached).mp (same.start path ▸ leads.led) }

theorem target?_congr {fs fs' : Files} (same : SameDirectories fs fs') (path : String) :
    fs.target? path = fs'.target? path := by
  have half : ∀ {fs fs' : Files}, SameDirectories fs fs' → ∀ names, fs.target? path = some names →
      fs'.target? path = some names := by
    intro fs fs' same names found
    obtain ⟨above, reached, name, leads, rfl, file⟩ := target?_eq_some.mp found
    exact target?_eq_some.mpr ⟨above, reached, name, leads.congr same, rfl, fun dir => file ((same.directory _).mpr dir)⟩
  exact Option.ext fun names => ⟨half same names, half same.symm names⟩

theorem Leads.find_eq {fs : Files} {path : String} {above reached : List String} {name : String}
    (leads : Leads fs path above reached name) : fs.find path = match fs.get? (reached ++ [name]) with
      | some e => .ok (reached ++ [name], e)
      | none => .error .notFound := by
  have plain := leads.plain
  simp only [isOdd, Bool.or_eq_false_iff] at plain
  have looked : fs.follow (fs.start path) (Path.names path) = fs.follow (reached ++ [name]) [] := by
    simp only [leads.names, follow_concat, leads.led, enter_down reached leads.down]
  rw [find, looked, follow_nil]
  cases fs.get? (reached ++ [name]) with
  | none => simp [plain]
  | some e => cases e <;> simp [plain]

theorem read_of_target {fs : Files} {path : String} {names : List String} (found : fs.target? path = some names)
    {text : String} (here : fs.get? names = some (.file (.text text))) : fs.read path = .ok text := by
  obtain ⟨above, reached, name, leads, rfl, -⟩ := target?_eq_some.mp found
  rw [read, leads.find_eq, here]

theorem write_of_target {fs : Files} {path : String} {names : List String} (found : fs.target? path = some names)
    (text : String) : fs.write path text = .ok (fs.put names (.file (.text text))) := by
  obtain ⟨above, reached, name, leads, rfl, file⟩ := target?_eq_some.mp found
  have plain := leads.plain
  simp only [isOdd, Bool.or_eq_false_iff] at plain
  rw [write, leads.find_eq]
  cases here : fs.get? (reached ++ [name]) with
  | none => simp [plain, leads.names, leads.led, leads.down]
  | some e =>
    cases e with
    | directory => exact absurd here file
    | file c => rfl

theorem leads_of_file {fs : Files} {path : String} {names : List String} {c : Content} (plain : isOdd path = false)
    (led : fs.follow (fs.start path) (Path.names path) = .ok (names, .file c)) : ∃ above reached name,
      Leads fs path above reached name ∧ fs.get? (reached ++ [name]) = some (.file c) := by
  rcases List.eq_nil_or_concat' (Path.names path) with empty | ⟨above, name, split⟩
  · rw [empty, follow_nil, get?_above (fs.start_above path)] at led
    cases led
  · rw [split, follow_concat] at led
    split at led
    · rename_i reached way
      have down : name ≠ ".." := fun up => by
        subst up
        rw [enter_up, follow_nil, prefix_directory way (List.dropLast_prefix reached)] at led
        cases led
      rw [enter_down reached down, follow_nil] at led
      cases here : fs.get? (reached ++ [name]) with
      | none =>
        rw [here] at led
        cases led
      | some e =>
        rw [here] at led
        cases led
        exact ⟨above, reached, name, ⟨plain, split, way, down⟩, here⟩
    · cases led
    · cases led

theorem leads_of_find_file {fs : Files} {path : String} {names : List String} {c : Content}
    (found : fs.find path = .ok (names, .file c)) : ∃ above reached name,
      Leads fs path above reached name ∧ fs.get? (reached ++ [name]) = some (.file c) := by
  rw [find] at found
  split at found
  · cases found
  · rename_i front
    split at found
    · rename_i led
      split at found
      · cases found
      · rename_i ending
        cases found
        exact leads_of_file (by simp_all [isOdd]) led
    · rename_i other
      exact absurd found (other _ _)

theorem target?_of_write {fs fs' : Files} {path text : String} (written : fs.write path text = .ok fs') :
    ∃ names, fs.target? path = some names := by
  rw [write] at written
  split at written
  · rename_i found
    obtain ⟨above, reached, name, leads, here⟩ := leads_of_find_file found
    exact ⟨_, target?_eq_some.mpr ⟨above, reached, name, leads, rfl, by simp [here]⟩⟩
  · cases written
  · rename_i missing
    split at written
    · cases written
    · rename_i front
      split at written
      · rename_i reached name led last
        split at written
        · cases written
        · rename_i down
          split at written
          · cases written
          · rename_i ending
            have leads : Leads fs path (Path.names path).dropLast reached name :=
              ⟨by simp_all [isOdd], (List.dropLast_append_getLast? _ last).symm, led, by simpa using down⟩
            refine ⟨_, target?_eq_some.mpr ⟨_, reached, name, leads, rfl, fun dir => ?_⟩⟩
            rw [leads.find_eq, dir] at missing
            cases missing
      · cases written
      · cases written
      · cases written
  · cases written

theorem write_eq_ok {fs fs' : Files} {path text : String} : fs.write path text = .ok fs' ↔
    ∃ names, fs.target? path = some names ∧ fs' = fs.put names (.file (.text text)) := by
  constructor
  · intro written
    obtain ⟨names, found⟩ := target?_of_write written
    rw [write_of_target found] at written
    exact ⟨names, found, (Except.ok.inj written).symm⟩
  · rintro ⟨names, found, rfl⟩
    exact write_of_target found text

end Retype.Files
