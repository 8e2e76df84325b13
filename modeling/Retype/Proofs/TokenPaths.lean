import Retype.Imports

/-! Paths in code that is not parsed.  A path begins with a name that `::` follows and that does not follow `::`.  The
scan asks less of the tokens beside a name: a colon that punctuation follows directly stands for the `::` after it, and
any colon for the `::` before it. -/

namespace Retype.Imports
open Retype.Code

mutual
/-- A tree of unparsed code as single tokens: a lifetime is an apostrophe and a name. -/
def apart : Tree → Trees
  | .leaf (.lifetime n) => [.leaf (.punct "'" true), word (String.ofList (n.toList.drop 1))]
  | .group d body => [.group d (apartAll body)]
  | t => [t]

def apartAll : List Tree → Trees
  | [] => []
  | t :: ts => apart t ++ apartAll ts
end

/-- The name stands somewhere in the trees, at any depth of groups, between trees of the given kind: those before it,
the nearest first, and those after it.  The first list is what stands before all of the trees. -/
inductive Stands (p : Trees → Trees → Prop) (n : String) : Trees → Trees → Prop
  | here {before after : Trees} (beside : p before after) : Stands p n before (word n :: after)
  | inside {before body after : Trees} {d : Delim} (deep : Stands p n [] body) :
      Stands p n before (.group d body :: after)
  | later {before after : Trees} {t : Tree} (further : Stands p n (t :: before) after) : Stands p n before (t :: after)

/-- `::` follows. -/
def Separates (after : Trees) : Prop :=
  ∃ joint rest, after = .leaf (.punct ":" true) :: .leaf (.punct ":" joint) :: rest

/-- `::` stands before. -/
def Separated (before : Trees) : Prop :=
  ∃ joint rest, before = .leaf (.punct ":" joint) :: .leaf (.punct ":" true) :: rest

/-- A name in this place begins a path. -/
def BeginsPath (before after : Trees) : Prop := Separates after ∧ ¬ Separated before

/-- A colon that punctuation follows directly comes next. -/
def AnyJointColon (after : Trees) : Prop := ∃ rest, after = .leaf (.punct ":" true) :: rest

def AfterColon (before : Trees) : Prop := ∃ joint rest, before = .leaf (.punct ":" joint) :: rest

/-- The scan takes a name in this place. -/
def IsTaken (before after : Trees) : Prop := AnyJointColon after ∧ ¬ AfterColon before

/-- `::` follows, and no colon stands before: a path begins here, and the scan takes its name. -/
def StartsPath (before after : Trees) : Prop := Separates after ∧ ¬ AfterColon before

theorem Separates.anyJointColon {after : Trees} (h : Separates after) : AnyJointColon after := by
  obtain ⟨joint, rest, rfl⟩ := h
  exact ⟨_, rfl⟩

theorem Separated.afterColon {before : Trees} (h : Separated before) : AfterColon before := by
  obtain ⟨joint, rest, rfl⟩ := h
  exact ⟨_, _, rfl⟩

theorem StartsPath.beginsPath (before after : Trees) (h : StartsPath before after) : BeginsPath before after :=
  ⟨h.1, fun separated => h.2 separated.afterColon⟩

theorem StartsPath.isTaken (before after : Trees) (h : StartsPath before after) : IsTaken before after :=
  ⟨h.1.anyJointColon, h.2⟩

namespace Stands
variable {p q : Trees → Trees → Prop} {n : String} {before ts : Trees} {t : Tree}

theorem not_nil : ¬ Stands p n before [] := by
  rintro ⟨⟩

theorem word_cons {m : String} : Stands p n before (word m :: ts) ↔
    (n = m ∧ p before ts) ∨ Stands p n (word m :: before) ts := by
  constructor
  · intro h
    cases h with
    | here beside => exact .inl ⟨rfl, beside⟩
    | later further => exact .inr further
  · rintro (⟨rfl, beside⟩ | further)
    · exact .here beside
    · exact .later further

theorem group_cons {d : Delim} {body : Trees} : Stands p n before (.group d body :: ts) ↔
    Stands p n [] body ∨ Stands p n (.group d body :: before) ts := by
  constructor
  · intro h
    cases h with
    | inside deep => exact .inl deep
    | later further => exact .inr further
  · exact fun h => h.elim .inside .later

theorem other_cons (noWord : ∀ m, t ≠ word m) (noGroup : ∀ d body, t ≠ .group d body) :
    Stands p n before (t :: ts) ↔ Stands p n (t :: before) ts := by
  constructor
  · intro h
    cases h with
    | here => exact (noWord n rfl).elim
    | inside => exact (noGroup _ _ rfl).elim
    | later further => exact further
  · exact .later

theorem mono (within : ∀ before after, p before after → q before after) (h : Stands p n before ts) :
    Stands q n before ts := by
  induction h with
  | here beside => exact .here (within _ _ beside)
  | inside _ ih => exact .inside ih
  | later _ ih => exact .later ih

theorem or_iff : Stands (fun before after => p before after ∨ q before after) n before ts ↔
    Stands p n before ts ∨ Stands q n before ts := by
  constructor
  · intro h
    induction h with
    | here beside => exact beside.imp .here .here
    | inside _ ih => exact ih.imp .inside .inside
    | later _ ih => exact ih.imp .later .later
  · rintro (h | h)
    · exact h.mono fun _ _ => .inl
    · exact h.mono fun _ _ => .inr

end Stands

theorem afterColon_iff (before : Trees) : AfterColon before ↔ before.head?.any (·.isOp ":") = true := by
  constructor
  · rintro ⟨joint, rest, rfl⟩
    rfl
  · intro h
    cases before with
    | nil => cases h
    | cons t rest =>
      obtain ⟨joint, rfl⟩ := Tree.eq_of_isOp h
      exact ⟨joint, rest, rfl⟩

theorem isJointColon_iff (t : Tree) : isJointColon t = true ↔ t = .leaf (.punct ":" true) := by
  unfold isJointColon
  split
  · rename_i joint
    cases joint <;> simp
  · rename_i other
    simp only [Bool.false_eq_true, false_iff]
    rintro rfl
    exact other true rfl

theorem anyJointColon_apartAll (ts : Trees) : AnyJointColon (apartAll ts) ↔ ts.head?.any isJointColon = true := by
  cases ts with
  | nil => simp [AnyJointColon, apartAll]
  | cons t ts =>
    rw [List.head?_cons, Option.any_some, isJointColon_iff, apartAll]
    unfold apart
    split <;> simp [AnyJointColon]

theorem mem_own_iff {n : String} {previous : Option Tree} {t : Tree} {ts : Trees} :
    n ∈ (if ts.head?.any isJointColon && !continuesPath previous t then bareName? t else []) ↔
      AnyJointColon (apartAll ts) ∧ continuesPath previous t = false ∧ n ∈ bareName? t := by
  rw [anyJointColon_apartAll]
  cases ts.head?.any isJointColon <;> cases continuesPath previous t <;> simp

theorem mem_scan_cons_other {n : String} {previous : Option Tree} {before ts : Trees} {t : Tree} (alone : apart t = [t])
    (noName : bareName? t = []) (noWord : ∀ m, t ≠ word m) (noGroup : ∀ d body, t ≠ .group d body)
    (rest : n ∈ scan (some t) ts ↔ Stands IsTaken n (t :: before) (apartAll ts)) :
    n ∈ scan previous (t :: ts) ↔ Stands IsTaken n before (apartAll (t :: ts)) := by
  have closed : scanGroup t = [] := by
    unfold scanGroup
    split
    · exact (noGroup _ _ rfl).elim
    · rfl
  rw [scan, noName, ite_self, closed, List.nil_append, List.nil_append, rest, apartAll, alone, List.singleton_append,
    Stands.other_cons noWord noGroup]

mutual
theorem mem_scan_iff {n : String} {previous : Option Tree} {before : Trees}
    (same : AfterColon before ↔ previous.any (·.isOp ":") = true) (ts : List Tree) :
    n ∈ scan previous ts ↔ Stands IsTaken n before (apartAll ts) := by
  match ts with
  | [] => exact iff_of_false List.not_mem_nil Stands.not_nil
  | t :: ts =>
    have rest (before' : Trees) (same' : AfterColon before' ↔ t.isOp ":" = true) :
        n ∈ scan (some t) ts ↔ Stands IsTaken n before' (apartAll ts) := mem_scan_iff same' ts
    have group := mem_scanGroup_iff (n := n) t
    cases t with
    | node k parts =>
      exact mem_scan_cons_other rfl rfl (fun m same => by cases same) (fun d body same => by cases same)
        (rest _ (afterColon_iff _))
    | group d body =>
      have deep : n ∈ scanGroup (.group d body) ↔ Stands IsTaken n [] (apartAll body) := group d body rfl
      have none : n ∉ bareName? (.group d body) := List.not_mem_nil
      rw [scan, List.mem_append, List.mem_append, mem_own_iff, apartAll,
        rest (.group d (apartAll body) :: before) (afterColon_iff _), deep, apart, List.singleton_append,
        Stands.group_cons]
      simp only [none, and_false, false_or]
    | leaf token =>
      have closed : n ∉ scanGroup (.leaf token) := List.not_mem_nil
      cases token with
      | literal text =>
        exact mem_scan_cons_other rfl rfl (fun m same => by cases same) (fun d body same => by cases same)
          (rest _ (afterColon_iff _))
      | punct text joint =>
        exact mem_scan_cons_other rfl rfl (fun m same => by cases same) (fun d body same => by cases same)
          (rest _ (afterColon_iff _))
      | ident m =>
        have own : n ∈ bareName? (.leaf (.ident m)) ↔ n = m := List.mem_singleton
        have unseparated : continuesPath previous (.leaf (.ident m)) = false ↔ ¬ AfterColon before := by
          rw [same, Bool.not_eq_true]
          rfl
        have alone : apart (.leaf (.ident m)) = [word m] := rfl
        rw [scan, List.mem_append, List.mem_append, mem_own_iff, apartAll, rest (word m :: before) (afterColon_iff _),
          own, unseparated, alone, List.singleton_append, Stands.word_cons, IsTaken]
        simp only [closed, or_false, and_comm, and_assoc]
      | lifetime m =>
        -- the apostrophe is what stands before the name, and it is no colon
        have own : n ∈ bareName? (.leaf (.lifetime m)) ↔ n = String.ofList (m.toList.drop 1) := List.mem_singleton
        have apostrophe : ¬ AfterColon (.leaf (.punct "'" true) :: before) := by
          rw [afterColon_iff]
          exact Bool.false_ne_true
        rw [scan, List.mem_append, List.mem_append, mem_own_iff, apartAll,
          rest (word (String.ofList (m.toList.drop 1)) :: .leaf (.punct "'" true) :: before) (afterColon_iff _), own,
          apart, List.cons_append, List.singleton_append,
          Stands.other_cons (fun m same => by cases same) (fun d body same => by cases same), Stands.word_cons, IsTaken]
        simp only [closed, apostrophe, continuesPath, or_false, true_and, not_false_eq_true, and_comm]

theorem mem_scanGroup_iff {n : String} (t : Tree) (d : Delim) (body : List Tree) (own : t = .group d body) :
    n ∈ scanGroup t ↔ Stands IsTaken n [] (apartAll body) := by
  match t with
  | .leaf token => cases own
  | .node k parts => cases own
  | .group e inner =>
    obtain ⟨rfl, rfl⟩ : e = d ∧ inner = body := by cases own; exact ⟨rfl, rfl⟩
    exact mem_scan_iff (afterColon_iff []) inner
end

theorem mem_scan_none_iff {n : String} {ts : Trees} : n ∈ scan none ts ↔ Stands IsTaken n [] (apartAll ts) := by
  have nothing : AfterColon [] ↔ (none : Option Tree).any (·.isOp ":") = true := afterColon_iff []
  exact mem_scan_iff nothing ts

end Retype.Imports
