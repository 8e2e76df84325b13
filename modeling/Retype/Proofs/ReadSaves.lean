import Retype.Proofs.Outlets
import Retype.Proofs.RoleMethods

/-! What a read leaves its method with.  Where it would only report success the model is to be handed over; that is done
where the last statement of the body is a bare success, and nowhere else. -/

namespace Retype
open Retype.Code
open Retype.Rewrite (Role isBareSuccess)
open TypedFile

/-- The exits of a list of statements but for a bare success at its end. -/
def earlierExits (stmts : Trees) : Trees :=
  stmts.dropLast.flatMap (exits Outlet.body.used) ++
    (stmts.getLast?.filter fun s => !isBareSuccess s).toList.flatMap (exits .body)

section Ends
variable {encode s : Tree}

theorem exits_statement (u : Outlet) (e semi : Tree) :
    exits u (.node (.stmt .expr) [e, semi]) = exits (u.statement semi) e := by
  rw [exits]

theorem exits_returnEarly (u : Outlet) (attrs w value : Tree) :
    exits u (.node (.expr .returnEarly) [attrs, w, value]) = exits u.operand value := by
  rw [exits]

theorem returns_statement (u : Outlet) (semi : Tree) : (u.statement semi).operand = u.operand := by
  unfold Outlet.statement
  split <;> rfl

theorem exits_encodeModel (s : Setting) (f : ResourceFn) : exits .body (encodeModel s f) = [encodeModel s f] := rfl

theorem exits_encodeLast (h : isBareSuccess s = true) (whole : exits .body encode = [encode]) :
    (∃ e, e.isOkUnit = true ∧ exits .body s = [e]) ∧ exits .body (encodeLast encode s) = [encode] := by
  unfold isBareSuccess at h
  split at h
  · rename_i attrs w value semi
    have leaves (value : Tree) :
        exits .body (.node (.stmt .expr) [.node (.expr .returnEarly) [attrs, w, value], semi]) = exits .body value := by
      rw [exits_statement, exits_returnEarly, returns_statement]
      rfl
    refine ⟨⟨value, h, ?_⟩, ?_⟩
    · rw [leaves, exits_of_isOkUnit h]
      rfl
    · rw [encodeLast, if_pos h, leaves, whole]
  · rename_i e semi noReturn
    rw [Bool.and_eq_true] at h
    have leaves (e : Tree) : exits .body (.node (.stmt .expr) [e, semi]) = exits .body e := by
      rw [exits_statement, Outlet.statement, if_pos h.1]
    refine ⟨⟨e, h.2, ?_⟩, ?_⟩
    · rw [leaves, exits_of_isOkUnit h.2]
      rfl
    · rw [encodeLast, if_pos (by rw [h.1, h.2]; rfl), leaves, whole]
      exact noReturn
  · cases h

theorem encodeLast_of_not (h : isBareSuccess s = false) : encodeLast encode s = s := by
  unfold encodeLast
  split
  · rename_i attrs w value semi
    rw [if_neg (by rw [isBareSuccess] at h; rw [h]; exact Bool.false_ne_true)]
  · rename_i e semi noReturn
    rw [isBareSuccess] at h
    · rw [h, if_neg Bool.false_ne_true]
    · exact noReturn
  · rfl

theorem encodeOnSuccess_append_last (encode : Tree) (front : Trees) (last : Tree) :
    encodeOnSuccess encode (front ++ [last]) = front ++ [encodeLast encode last] := by
  induction front with
  | nil => rfl
  | cons s front ih =>
    cases front with
    | nil => rfl
    | cons t front =>
      rw [List.cons_append, List.cons_append, encodeOnSuccess, ← List.cons_append, ih]
      rfl

theorem exits_encodeOnSuccess (stmts : Trees) (whole : exits .body encode = [encode]) : ∃ ends : Trees,
    (∀ e ∈ ends, e.isOkUnit = true) ∧ exits .body (blockOf stmts) = earlierExits stmts ++ ends ∧
    exits .body (blockOf (encodeOnSuccess encode stmts)) = earlierExits stmts ++ ends.map fun _ => encode := by
  rcases stmts.eq_nil_or_concat with rfl | ⟨front, last, rfl⟩
  · exact ⟨[], fun _ mem => (List.not_mem_nil mem).elim, rfl, rfl⟩
  rw [List.concat_eq_append, encodeOnSuccess_append_last]
  simp only [exits_block, exitsAll_listed, earlierExits, List.dropLast_concat, List.getLast?_concat, Option.toList_some,
    List.flatMap_singleton]
  cases h : isBareSuccess last with
  | true =>
    obtain ⟨⟨e, success, alone⟩, saved⟩ := exits_encodeLast h whole
    refine ⟨[e], fun e' mem => List.mem_singleton.mp mem ▸ success, ?_, ?_⟩
    · rw [alone, Option.filter_some_neg (by rw [h]; rfl)]
      simp
    · rw [saved, Option.filter_some_neg (by rw [h]; rfl)]
      simp
  | false =>
    refine ⟨[], fun _ mem => (List.not_mem_nil mem).elim, ?_, ?_⟩
    · rw [Option.filter_some_pos (by rw [h]; rfl)]
      simp
    · rw [encodeLast_of_not h, Option.filter_some_pos (by rw [h]; rfl)]
      simp

end Ends

/-- No exit of a body is a bare success. -/
def NeverBare (body : Tree) : Prop := ∀ e ∈ exits .body body, e.isOkUnit = false

/-- The exits of a body are kept, with the model where it would only report success. -/
def HandsOver (encode body block : Tree) : Prop :=
  exits .body block = (exits .body body).map fun e => if e.isOkUnit then encode else e

theorem exits_make (s : Setting) (f : ResourceFn) (u : Outlet) :
    exits u (letMut (Naming.identifier f.varModel) (defaultOf s.model)) = [] := rfl

theorem exits_closureBody (s : Setting) (f : ResourceFn) (read : f.role = .read) :
    exits .body (blockOf (closureBody s f)) = exits .body (blockOf (encodeOnSuccess (encodeModel s f) f.code.stmts)) := by
  have stmts : closureBody s f = letMut (Naming.identifier f.varModel) (defaultOf s.model) ::
      encodeOnSuccess (encodeModel s f) f.code.stmts := if_pos read
  rw [stmts, exits_block, exits_block]
  cases encodeOnSuccess (encodeModel s f) f.code.stmts with
  | nil => rfl
  | cons t rest =>
    rw [List.length_cons, List.length_cons, Outlet.listed, exitsAll, exits_make]
    rfl

/-- The closure of a read leaves as the body does, but hands the model over where a bare success ends the body.  So it
never leaves with a bare success exactly if the body does so nowhere else. -/
theorem read_saves_iff (s : Setting) (f : ResourceFn) (read : f.role = .read) : ∃ m block ends,
    crudMethod s f = .ok m ∧ handler? m = some block ∧ (∀ e ∈ ends, e.isOkUnit = true) ∧
    exits .body (blockOf f.code.stmts) = earlierExits f.code.stmts ++ ends ∧
    exits .body block = earlierExits f.code.stmts ++ (ends.map fun _ => encodeModel s f) ∧
    (NeverBare block ∧ HandsOver (encodeModel s f) (blockOf f.code.stmts) block ↔
      ∀ e ∈ earlierExits f.code.stmts, e.isOkUnit = false) := by
  have made : crudMethod s f = .ok (methodFor s f.role f.timeout f) := by
    have isCrud : (!f.role.isCrud) = false := by
      rw [read]
      rfl
    unfold crudMethod
    rw [isCrud, if_neg Bool.false_ne_true]
    rfl
  have handler : handler? (methodFor s f.role f.timeout f) = some (blockOf (closureBody s f)) := rfl
  obtain ⟨ends, bare, given, saved⟩ := exits_encodeOnSuccess f.code.stmts (exits_encodeModel s f)
  rw [← exits_closureBody s f read] at saved
  have noSuccess : (encodeModel s f).isOkUnit = false := rfl
  refine ⟨_, _, ends, made, handler, bare, given, saved, ?_⟩
  constructor
  · rintro ⟨never, -⟩ e mem
    exact never e (saved ▸ List.mem_append_left _ mem)
  · intro only
    constructor
    · intro e mem
      rw [saved] at mem
      rcases List.mem_append.mp mem with mem | mem
      · exact only e mem
      · obtain ⟨-, -, rfl⟩ := List.mem_map.mp mem
        exact noSuccess
    · have kept : (earlierExits f.code.stmts).map (fun e => if e.isOkUnit then encodeModel s f else e) =
          earlierExits f.code.stmts := by
        refine (List.map_congr_left fun e mem => ?_).trans (List.map_id _)
        rw [only e mem, if_neg Bool.false_ne_true]
        rfl
      have replaced : ends.map (fun e => if e.isOkUnit then encodeModel s f else e) = ends.map fun _ => encodeModel s f :=
        List.map_congr_left fun e mem => by rw [if_pos (bare e mem)]
      rw [HandsOver, saved, given, List.map_append, kept, replaced]

def readOf (stmts : Trees) : ResourceFn :=
  ⟨"show", .read, "model", some "d", 0, ⟨noAttrs, .absent, [], [], .absent, .absent, blockOf stmts⟩⟩

/-- A read that ends with a bare success hands the model over, but not where it answers with one before. -/
theorem read_saves_iff_early :
    let success : Tree := .node (.stmt .expr) [okUnit, .absent]
    let early : Tree := .node (.stmt .expr) [.node (.expr .ifElse) [noAttrs, word "if", var "gone",
      blockOf [closedStmt (Rewrite.returnOf okUnit)], .absent], .absent]
    (readOf [success]).role = .read ∧ (readOf [early, success]).role = .read ∧ ∃ s : Setting,
      (∃ m block, crudMethod s (readOf [success]) = .ok m ∧ handler? m = some block ∧ NeverBare block) ∧
      ∃ m block, crudMethod s (readOf [early, success]) = .ok m ∧ handler? m = some block ∧
        ¬(NeverBare block ∧ HandsOver (encodeModel s (readOf [early, success])) (blockOf [early, success]) block) := by
  intro success early
  obtain ⟨file, -⟩ := typed?_labelEntry
  refine ⟨rfl, rfl, ⟨{}, file.resource, .absent⟩, ?_, ?_⟩
  · obtain ⟨m, block, -, made, handler, -, -, -, saves⟩ := read_saves_iff ⟨{}, file.resource, .absent⟩ (readOf [success]) rfl
    refine ⟨m, block, made, handler, (saves.mpr ?_).1⟩
    decide
  · obtain ⟨m, block, -, made, handler, -, -, -, saves⟩ :=
      read_saves_iff ⟨{}, file.resource, .absent⟩ (readOf [early, success]) rfl
    refine ⟨m, block, made, handler, fun whole => absurd (saves.mp whole) ?_⟩
    decide

end Retype
