import Retype.Proofs.Lookups
import Retype.Proofs.Numbers
import Retype.Proofs.RoleMethods

/-! Timeouts of methods.  A definition gives them in units down to the millisecond, and a method carries whole seconds:
what a duration has below a second is lost, and one of less than a second is taken for none. -/

namespace Retype
open Retype.Code
open Retype.Rewrite (Role frame)
open TypedFile

/-- The duration that a definition gives for a role, in milliseconds. -/
def givenTimeout? (lit : StructLit) (role : Role) : Option Nat :=
  ((Definition.field? lit "timeouts").bind Tree.structLit?).bind fun timeouts =>
    timeouts.fields.reverse.findSome? fun (name, value) => if name = role.label then Definition.duration? value else none

theorem get?_timeouts (fields : List (String × Tree)) (role : Role) :
    Table.get? (Table.ofList (fields.filterMap fun (name, value) => (Definition.duration? value).map (name, ·)))
        role.label =
      fields.reverse.findSome? fun (name, value) => if name = role.label then Definition.duration? value else none := by
  induction fields using List.reverseRecOn with
  | nil => rfl
  | append_singleton fields last ih =>
    obtain ⟨name, value⟩ := last
    rw [List.filterMap_append, List.reverse_concat, List.findSome?_cons, ← ih]
    cases duration : Definition.duration? value with
    | none =>
      have nothing : [(name, value)].filterMap (fun (name, value) => (Definition.duration? value).map (name, ·)) = [] := by
        simp only [List.filterMap_cons, List.filterMap_nil, duration, Option.map_none]
      rw [nothing, List.append_nil]
      dsimp only
      rw [duration, ite_self]
    | some t =>
      have one : [(name, value)].filterMap (fun (name, value) => (Definition.duration? value).map (name, ·)) =
          [(name, t)] := by
        simp only [List.filterMap_cons, List.filterMap_nil, duration, Option.map_some]
      rw [one, Table.get?_ofList_append]
      dsimp only
      rw [duration]
      by_cases same : name = role.label
      · rw [if_pos same.symm, if_pos same]
      · rw [if_neg (Ne.symm same), if_neg same]

theorem timeoutFor_eq (lit : StructLit) (role : Role) : timeoutFor lit role = (givenTimeout? lit role).getD 0 := by
  unfold timeoutFor givenTimeout?
  cases Definition.field? lit "timeouts" with
  | none => rfl
  | some timeouts =>
    rw [Option.map_some, Option.getD_some, Option.bind_some, Definition.timeouts]
    cases timeouts.structLit? with
    | none => rfl
    | some fields =>
      rw [Option.bind_some]
      dsimp only
      rw [get?_timeouts]

/-- The value of an expression of numbers and products, if no step leaves the range of unsigned 64-bit integers. -/
def amount? : Tree → Option Nat
  | .node (.expr .lit) [_, .leaf (.literal t)] => (Literal.intValue? t).bind Definition.unsigned64
  | .node (.expr .binary) [_, l, .leaf (.punct "*" _), r] =>
    match amount? l, amount? r with
    | some a, some b => Definition.unsigned64 ((a * b : Nat) : Int)
    | _, _ => none
  | _ => none

/-- The duration, in milliseconds, that a call of `Duration::from_secs` denotes. -/
def denoted? (e : Tree) : Option Nat :=
  match e.callPath? with
  | some ("Duration::from_secs", [seconds]) => (amount? seconds).map (· * 1000)
  | _ => none

/-- The method has a timeout of so many milliseconds. -/
def HasTimeout (m : Tree) (millis : Nat) : Prop := ∃ e, methodField? "timeout" m = some e ∧ denoted? e = some millis

theorem unsigned64_of_lt {n : Nat} (h : n < UInt64.size) : Definition.unsigned64 (n : Int) = some n := by
  have inside : (decide (0 ≤ (n : Int)) && decide ((n : Int) < UInt64.size)) = true := by
    rw [Bool.and_eq_true, decide_eq_true_iff, decide_eq_true_iff]
    exact ⟨Int.natCast_nonneg n, Int.ofNat_lt.mpr h⟩
  rw [Definition.unsigned64, if_pos inside, Int.toNat_natCast]

theorem lt_of_unsigned64 {n : Int} {m : Nat} (h : Definition.unsigned64 n = some m) : m < UInt64.size := by
  unfold Definition.unsigned64 at h
  split at h
  · rename_i inside
    rw [Bool.and_eq_true, decide_eq_true_iff, decide_eq_true_iff] at inside
    cases h
    omega
  · cases h

/-- The seconds of a duration that a definition gives are in the range of unsigned 64-bit integers. -/
def InRange (millis : Nat) : Prop := millis / 1000 < UInt64.size

theorem inRange_of_seconds {scale : Nat} {e : Tree} {t : Nat} (h : Definition.seconds scale e = some t) : InRange t := by
  unfold Definition.seconds at h
  obtain ⟨n, -, h⟩ := Option.bind_eq_some_iff.mp h
  obtain ⟨m, -, h⟩ := Option.bind_eq_some_iff.mp h
  obtain ⟨total, product, rfl⟩ := Option.map_eq_some_iff.mp h
  rw [InRange, Nat.mul_div_cancel _ (by decide)]
  exact lt_of_unsigned64 product

theorem inRange_of_duration? (e : Tree) : ∀ t, Definition.duration? e = some t → InRange t := by
  have first {args : Trees} {scale t : Nat} (h : args.head?.bind (Definition.seconds scale) = some t) : InRange t := by
    obtain ⟨arg, -, h⟩ := Option.bind_eq_some_iff.mp h
    exact inRange_of_seconds h
  refine Definition.duration?.induct (fun e => ∀ t, Definition.duration? e = some t → InRange t)
    (fun args => ∀ t, Definition.firstDuration? args = some t → InRange t)
    ?paren ?several ?noName ?secs ?mins ?hours ?millis ?wrapped ?other ?nil ?cons e
  case paren =>
    intro attrs d e ih t h
    rw [Definition.duration?] at h
    exact ih t h
  case several =>
    intro attrs attrs' path d args several t h
    rw [Definition.duration?, if_pos several] at h
    cases h
  case noName =>
    intro attrs attrs' path d args one name t h
    rw [Definition.duration?, if_neg one, name] at h
    cases h
  case secs | mins | hours =>
    intro attrs attrs' path d args one name t h
    rw [Definition.duration?, if_neg one, name] at h
    exact first h
  case millis =>
    intro attrs attrs' path d args one name t h
    rw [Definition.duration?, if_neg one, name] at h
    obtain ⟨arg, -, h⟩ := Option.bind_eq_some_iff.mp h
    obtain ⟨n, -, h⟩ := Option.bind_eq_some_iff.mp h
    exact Nat.lt_of_le_of_lt (Nat.div_le_self _ _) (lt_of_unsigned64 h)
  case wrapped =>
    intro attrs attrs' path d args one n noSecs noMins noHours noMillis name ih t h
    rw [Definition.duration?, if_neg one, name] at h
    split at h
    · cases ‹some n = none›
    · exact absurd (Option.some.inj ‹some n = some "from_secs"›) noSecs
    · exact absurd (Option.some.inj ‹some n = some "from_mins"›) noMins
    · exact absurd (Option.some.inj ‹some n = some "from_hours"›) noHours
    · exact absurd (Option.some.inj ‹some n = some "from_millis"›) noMillis
    · exact ih t h
  case other =>
    intro e noParen noCall t h
    rw [Definition.duration?] at h
    · cases h
    · exact noParen
    · exact noCall
  case nil =>
    rintro t ⟨⟩
  case cons =>
    intro e args ih t h
    rw [Definition.firstDuration?] at h
    exact ih t h

theorem inRange_timeoutFor (lit : StructLit) (role : Role) : InRange (timeoutFor lit role) := by
  rw [timeoutFor_eq]
  cases given : givenTimeout? lit role with
  | none => exact Nat.zero_lt_succ _
  | some t =>
    obtain ⟨timeouts, -, found⟩ := Option.bind_eq_some_iff.mp given
    obtain ⟨⟨name, value⟩, -, found⟩ := List.exists_of_findSome?_eq_some found
    dsimp only at found
    split at found
    · exact inRange_of_duration? value t found
    · cases found

theorem amount?_number {n : Nat} (h : n < UInt64.size) : amount? (numberExpr n) = some n := by
  rw [numberExpr, lit, amount?, Literal.intValue?_toString, Option.bind_some, unsigned64_of_lt h]

theorem amount?_product {a b : Nat} (ha : a < UInt64.size) (hb : b < UInt64.size) (h : a * b < UInt64.size) :
    amount? (binaryOf (numberExpr a) "*" (numberExpr b)) = some (a * b) := by
  rw [binaryOf, op, amount?, amount?_number ha, amount?_number hb]
  exact unsigned64_of_lt h

def wholeSeconds (config : Config) (millis : Nat) : Nat :=
  if millis / 1000 = 0 then config.defaultTimeoutSecs else millis / 1000

theorem denoted?_timeoutExpr (s : Setting) (f : ResourceFn) (fits : s.config.defaultTimeoutSecs < UInt64.size)
    (inRange : f.timeout / 1000 < UInt64.size) :
    denoted? (timeoutExpr s f) = some (wholeSeconds s.config f.timeout * 1000) := by
  have seconds : wholeSeconds s.config f.timeout < UInt64.size := by
    unfold wholeSeconds
    split
    · exact fits
    · exact inRange
  have path : (pathOfNames ["Duration", "from_secs"]).pathString = "Duration::from_secs" := by decide
  have call (k : Kind) (parts : Trees) : denoted? (callOf (exprOf (pathOfNames ["Duration", "from_secs"])) [.node k parts]) =
      (amount? (.node k parts)).map (· * 1000) := by
    have read : (callOf (exprOf (pathOfNames ["Duration", "from_secs"])) [.node k parts]).callPath? =
        some ((pathOfNames ["Duration", "from_secs"]).pathString, [.node k parts]) := by
      rw [Tree.callPath?, callOf, Tree.stripParens]
      · rfl
      · rintro _ _ _ ⟨⟩
    simp only [denoted?, read, path]
  have emitted : timeoutExpr s f = callOf (exprOf (pathOfNames ["Duration", "from_secs"]))
      [if wholeSeconds s.config f.timeout % 60 = 0 then
        binaryOf (numberExpr (wholeSeconds s.config f.timeout / 60)) "*" (numberExpr 60)
      else numberExpr (wholeSeconds s.config f.timeout)] := rfl
  rw [emitted]
  by_cases minutes : wholeSeconds s.config f.timeout % 60 = 0
  · have whole : wholeSeconds s.config f.timeout / 60 * 60 = wholeSeconds s.config f.timeout :=
      Nat.div_mul_cancel (Nat.dvd_of_mod_eq_zero minutes)
    have product := amount?_product (a := wholeSeconds s.config f.timeout / 60) (b := 60)
      (Nat.lt_of_le_of_lt (Nat.div_le_self _ _) seconds) (by decide) (whole.symm ▸ seconds)
    rw [if_pos minutes, binaryOf, call, ← binaryOf, product, whole]
    rfl
  · rw [if_neg minutes, numberExpr, call, ← numberExpr, amount?_number seconds]
    rfl

/-- The timeout that a method is to have: the given one, or the default if none is given or it is zero. -/
def declaredTimeout (config : Config) (given : Option Nat) : Nat :=
  if given.getD 0 = 0 then config.defaultTimeoutSecs * 1000 else given.getD 0

theorem wholeSeconds_eq_declared_iff (config : Config) (given : Option Nat) :
    wholeSeconds config (given.getD 0) * 1000 = declaredTimeout config given ↔ 1000 ∣ given.getD 0 := by
  unfold wholeSeconds declaredTimeout
  generalize given.getD 0 = t
  by_cases short : t / 1000 = 0
  · rw [if_pos short]
    by_cases zero : t = 0
    · rw [if_pos zero, zero]
      exact iff_of_true rfl (Nat.dvd_zero 1000)
    · rw [if_neg zero]
      omega
  · have some : t ≠ 0 := fun zero => short (by rw [zero])
    rw [if_neg short, if_neg some]
    omega

section Methods
variable {s : Setting} {promoted : List String} {items structs further methods : Trees} {main : Tree}

theorem Assembled.main_mem (assembled : Assembled s promoted items structs main further methods) : main ∈ items := by
  rw [assembled.items]
  simp

theorem Assembled.further_subset (assembled : Assembled s promoted items structs main further methods) {t : Tree}
    (mem : t ∈ further) : t ∈ items := by
  rw [assembled.items]
  simp [mem]

theorem Assembled.member_of_mem (assembled : Assembled s promoted items structs main further methods) {name : String}
    (mem : name ∈ s.resource.crudNames) : ∃ m trait members, crudMethodNamed s name = .ok m ∧
      implTraitOf trait s.receiver members ∈ items ∧ m ∈ members := by
  rcases List.mem_append.mp mem with mem | mem
  · obtain ⟨crud, made, rfl⟩ := resourceImpl_eq_ok assembled.ofMain
    obtain ⟨m, inside, made⟩ := exists_of_forall₂_right (forall₂_of_mapM made).flip mem
    exact ⟨m, _, _, made, assembled.main_mem, List.mem_append_right _ inside⟩
  · obtain ⟨updates, upgrades, rfl, updated, -⟩ := furtherImpls_eq_ok assembled.ofFurther
    obtain ⟨impl, inside, m, made, rfl⟩ := exists_of_forall₂_right updated.flip mem
    exact ⟨m, _, _, made, assembled.further_subset (List.mem_append_left _ inside), List.mem_singleton_self m⟩

theorem hasTimeout_methodFor (s : Setting) (role : Role) (f : ResourceFn) {timeout : Nat}
    (fits : s.config.defaultTimeoutSecs < UInt64.size) (inRange : InRange timeout) (millis : Nat) :
    HasTimeout (methodFor s role timeout f) millis ↔ wholeSeconds s.config timeout * 1000 = millis := by
  have denoted := denoted?_timeoutExpr s { f with timeout := timeout } fits inRange
  have given : methodField? "timeout" (methodFor s role timeout f) = some (timeoutExpr s { f with timeout := timeout }) := rfl
  constructor
  · rintro ⟨e, found, same⟩
    cases given.symm.trans found
    exact Option.some.inj (denoted.symm.trans same)
  · rintro rfl
    exact ⟨_, given, denoted⟩

end Methods

/-- The method of a function that a definition names has the timeout that the definition gives for the role, in whole
seconds: it has the timeout as it was given exactly if that has no part below a second. -/
theorem timeouts_in_whole_seconds {config : Config} {entry : RegistryEntry} {file : Typed}
    (built : typed? config entry = some file) (fits : config.defaultTimeoutSecs < UInt64.size) :
    ∃ lit sdk, Resource.definitionOf config entry = some lit ∧ NamedBy lit file.resource ∧
    let s : Setting := ⟨config, file.resource, sdk⟩
    (∀ f : ResourceFn, f.timeout / 1000 < UInt64.size →
      denoted? (timeoutExpr s f) = some (wholeSeconds config f.timeout * 1000)) ∧
    ∀ name ∈ file.resource.crudNames, ∃ f m impl trait members, file.resource.function? name = some f ∧
      crudMethod s f = .ok m ∧ methodName? m = some f.role.label ∧
      impl ∈ file.items ∧ impl.impl? = some ⟨some trait, s.receiver, members⟩ ∧ m ∈ members ∧
      HasTimeout m (wholeSeconds config ((givenTimeout? lit f.role).getD 0) * 1000) ∧
      (HasTimeout m (declaredTimeout config (givenTimeout? lit f.role)) ↔ 1000 ∣ (givenTimeout? lit f.role).getD 0) := by
  obtain ⟨r, analysed, rewritten, items⟩ := typed?_eq_some built
  obtain ⟨lit, crud, analysed⟩ := analysed_of_ofEntry analysed
  obtain ⟨-, framed⟩ := Rewrite.rewriteResource?_frame rewritten
  obtain ⟨sdk, structs, main, further, methods, assembled⟩ := assembled_of_items items
  obtain ⟨namedBy, create, read, update, delete⟩ := crud_of_rewritten analysed rewritten
  refine ⟨lit, sdk, analysed.defined, namedBy, fun f inRange => denoted?_timeoutExpr _ f fits inRange, fun name mem => ?_⟩
  obtain ⟨m, trait, members, made, inFile, inside⟩ := assembled.member_of_mem mem
  have isCrud : (crud.role name).isCrud = true := by
    rw [Resource.Crud.isCrud_role, List.contains_iff_mem]
    rwa [Resource.crudNames, create, read, update, delete] at mem
  obtain ⟨f, found, rfl⟩ := analysed.crudMethodNamed framed isCrud made
  obtain ⟨listed, rfl⟩ := function?_eq_some found
  have role := (analysed.role_timeout framed listed).1
  have ofCrud : crudMethod ⟨config, file.resource, sdk⟩ f = .ok (methodFor ⟨config, file.resource, sdk⟩ (crud.role f.name)
      (timeoutFor lit (crud.role f.name)) f) := by
    unfold TypedFile.crudMethodNamed at made
    rwa [found] at made
  have has := hasTimeout_methodFor ⟨config, file.resource, sdk⟩ (crud.role f.name) f fits
    (inRange_timeoutFor lit (crud.role f.name))
  rw [← role] at ofCrud inside has
  refine ⟨f, _, _, trait, members, found, ofCrud, methodName?_methodFor _ _ _ _, inFile, rfl, inside, ?_, ?_⟩
  · rw [has, timeoutFor_eq]
  · rw [has, timeoutFor_eq, wholeSeconds_eq_declared_iff]

/-- A definition that gives durations of one and a half seconds, of half a second and of ninety seconds. -/
def timedEntry : RegistryEntry :=
  let seconds (unit : String) (n : Nat) : Tree := callOf (exprOf (pathOfNames ["Duration", unit])) [numberExpr n]
  let timeouts : Tree := structLitOf (pathOf "ResourceTimeout")
    [("create", callOf (var "Some") [seconds "from_millis" 1500]), ("read", seconds "from_millis" 500),
      ("delete", seconds "from_secs" 90)]
  ⟨"tag", "tag", "tag.rs",
    [definitionFn "tag" [("create", var "add"), ("read", var "show"), ("delete", var "drop"), ("schema", arrayOf []),
        ("timeouts", timeouts)],
      plainFn "add" Tree.absent [], plainFn "show" Tree.absent [], plainFn "drop" Tree.absent []]⟩

theorem typed?_timedEntry : ∃ file, typed? {} timedEntry = some file ∧ file.resource.crudNames = ["add", "show", "drop"] ∧
    file.resource.functions.map (fun f => (f.name, f.role)) = [("add", .create), ("show", .read), ("drop", .delete)] := by
  have known : ((typed? {} timedEntry).any fun file => file.resource.crudNames == ["add", "show", "drop"] &&
      file.resource.functions.map (fun f => (f.name, f.role)) ==
        [("add", .create), ("show", .read), ("drop", .delete)]) = true := by
    decide +kernel
  obtain ⟨file, built, known⟩ := (Option.any_eq_true _ _).mp known
  exact ⟨file, built, by simpa only [Bool.and_eq_true, beq_iff_eq] using known⟩

theorem timeouts_in_whole_seconds_timed : ∃ file lit, typed? {} timedEntry = some file ∧
    ({} : Config).defaultTimeoutSecs < UInt64.size ∧ Resource.definitionOf {} timedEntry = some lit ∧
    givenTimeout? lit .create = some 1500 ∧ givenTimeout? lit .read = some 500 ∧
    ∃ add find, methodName? add = some "create" ∧ HasTimeout add 1000 ∧ ¬HasTimeout add 1500 ∧
      methodName? find = some "read" ∧ HasTimeout find 1800000 ∧ ¬HasTimeout find 500 := by
  obtain ⟨file, built, names, roles⟩ := typed?_timedEntry
  have fits : ({} : Config).defaultTimeoutSecs < UInt64.size := by decide
  obtain ⟨lit, sdk, defined, -, -, methods⟩ := timeouts_in_whole_seconds built fits
  have given : (Resource.definitionOf {} timedEntry).map (fun lit => (givenTimeout? lit .create, givenTimeout? lit .read)) =
      some (some 1500, some 500) := by
    decide +kernel
  rw [defined, Option.map_some, Option.some_inj, Prod.mk.injEq] at given
  obtain ⟨create, read⟩ := given
  have roleOf {name : String} {f : ResourceFn} (found : file.resource.function? name = some f) :
      (name, f.role) ∈ [("add", Role.create), ("show", .read), ("drop", .delete)] := by
    obtain ⟨listed, rfl⟩ := function?_eq_some found
    exact roles ▸ List.mem_map_of_mem listed
  rw [names] at methods
  obtain ⟨f, add, -, -, -, found, -, named, -, -, -, has, exact⟩ := methods "add" (by simp)
  obtain ⟨g, find, -, -, -, found', -, named', -, -, -, has', exact'⟩ := methods "show" (by simp)
  have addRole : f.role = .create := by simpa using roleOf found
  have findRole : g.role = .read := by simpa using roleOf found'
  rw [addRole, create] at has exact
  rw [findRole, read] at has' exact'
  rw [addRole] at named
  rw [findRole] at named'
  exact ⟨file, lit, built, fits, defined, create, read, add, find, named, has, fun claimed => absurd (exact.mp claimed) (by decide),
    named', has', fun claimed => absurd (exact'.mp claimed) (by decide)⟩

end Retype
