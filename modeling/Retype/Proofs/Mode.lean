import Retype.Proofs.Access
import Retype.TypedFile

/-! The mode of a run.  Whether look-ups may be left decides what is done with a resource that is analysed,
rewritten and assembled; none of the three asks for it. -/

namespace Retype
open Retype.Code

def Config.inMode (config : Config) (strict : Bool) : Config := { config with strict := strict }

theorem Config.fault?_inMode (config : Config) (strict : Bool) : (config.inMode strict).fault? = config.fault? := rfl

section Analysis
variable (config : Config) (strict : Bool)

theorem Schema.fields?_inMode (fuel : Nat) :
    Schema.fields? (config.inMode strict) fuel = Schema.fields? config fuel := by
  induction fuel with
  | zero => rfl
  | succ fuel ih =>
    funext e
    rw [Schema.fields?, Schema.fields?, ih]
    rfl

theorem Schema.ofExpr?_inMode : Schema.ofExpr? (config.inMode strict) = Schema.ofExpr? config := by
  have same : Schema.attributeOf (config.inMode strict) = Schema.attributeOf config := by
    funext tag value
    rw [Schema.attributeOf, Schema.attributeOf, Schema.fields?_inMode]
    rfl
  funext e
  rw [Schema.ofExpr?, Schema.ofExpr?, same]

theorem Resource.ofEntry_inMode (entry : RegistryEntry) :
    Resource.ofEntry (config.inMode strict) entry = Resource.ofEntry config entry := by
  have schema : Resource.schemaOf (config.inMode strict) = Resource.schemaOf config := by
    funext lit
    rw [Resource.schemaOf, Resource.schemaOf, Schema.ofExpr?_inMode]
  unfold Resource.ofEntry
  rw [schema]
  rfl

end Analysis

namespace Rewrite

def Context.inMode (c : Context) (strict : Bool) : Context := { c with config := c.config.inMode strict }

section Rewriters
variable (c : Context) (strict : Bool)

@[simp] theorem isAccessor_inMode (e : Tree) : (c.inMode strict).isAccessor e = c.isAccessor e := rfl

theorem setCall_inMode (t : Tree) : setCall (c.inMode strict) t = setCall c t := by
  fun_induction setCall c t <;> simp_all [setCall]

theorem setStatement_inMode (t : Tree) : setStatement (c.inMode strict) t = setStatement c t := by
  unfold setStatement guardedCall
  simp only [setCall_inMode]

theorem accessorSet_inMode (t : Tree) : accessorSet (c.inMode strict) t = accessorSet c t := by
  rw [accessorSet, accessorSet, setStatement_inMode]
  rfl

theorem elideTimeouts_inMode (stmts : Trees) : elideTimeouts (c.inMode strict) stmts = elideTimeouts c stmts := by
  have acquisition : isAcquisition (c.inMode strict) = isAcquisition c := rfl
  have release : isRelease (c.inMode strict) = isRelease c := rfl
  fun_induction elideTimeouts c stmts <;> simp_all [elideTimeouts]

theorem moveIdentity_inMode (accessor : String) (stmts : Trees) :
    moveIdentity (c.inMode strict) accessor stmts = moveIdentity c accessor stmts := by
  have gone : markAsGone (c.inMode strict) = markAsGone c := rfl
  have set : setIdentity (c.inMode strict) = setIdentity c := rfl
  fun_induction moveIdentity c accessor stmts <;> simp_all [moveIdentity]

theorem replaceTrailingRead_inMode (stmts : Trees) :
    replaceTrailingRead (c.inMode strict) stmts = replaceTrailingRead c stmts := by
  have success : readToSuccess? (c.inMode strict) = readToSuccess? c := rfl
  fun_induction replaceTrailingRead c stmts <;> simp_all [replaceTrailingRead]

theorem controlFlow_inMode (t : Tree) : controlFlow (c.inMode strict) t = controlFlow c t := by
  have moved : moveIdentities (c.inMode strict) = moveIdentities c := by
    funext stmts
    unfold moveIdentities
    simp only [moveIdentity_inMode]
    rfl
  have acquisition : isAcquisition (c.inMode strict) = isAcquisition c := rfl
  unfold controlFlow
  simp only [elideTimeouts_inMode, moved, replaceTrailingRead_inMode, acquisition]
  rfl

theorem argumentTypes_inMode (index : Nat) (args : Trees) :
    argumentTypes (c.inMode strict) index args = argumentTypes c index args := by
  have argument : argumentType (c.inMode strict) = argumentType c := rfl
  fun_induction argumentTypes c index args <;> simp_all [argumentTypes]

theorem promoteCall_inMode (value : Tree) (target : Option (List String)) :
    promoteCall (c.inMode strict) value target = promoteCall c value target := by
  unfold promoteCall
  simp only [argumentTypes_inMode]
  rfl

theorem inlineFunction_inMode (t : Tree) : inlineFunction (c.inMode strict) t = inlineFunction c t := by
  unfold inlineFunction
  simp only [promoteCall_inMode]
  rfl

theorem Rewriter.apply_inMode (r : Rewriter) (t : Tree) : r.apply (c.inMode strict) t = r.apply c t := by
  cases r with
  | metaAccess => rfl
  | accessorGet => rfl
  | accessorSet => exact accessorSet_inMode c strict t
  | importGuard => rfl
  | controlFlow => exact controlFlow_inMode c strict t
  | functionRename => rfl
  | inlineFunction => exact inlineFunction_inMode c strict t
  | compositeLiteral => rfl

theorem Stage.rewriteFirst_inMode (stage : Stage) (t : Tree) :
    stage.rewriteFirst (c.inMode strict) t = stage.rewriteFirst c t := by
  induction stage with
  | nil => rfl
  | cons r rs ih => rw [Stage.rewriteFirst, Stage.rewriteFirst, Rewriter.apply_inMode, ih]

theorem Stage.walk_inMode (stage : Stage) (depth : Nat) :
    stage.walk (c.inMode strict) depth = stage.walk c depth := by
  induction depth with
  | zero => rfl
  | succ depth ih =>
    have offer : stage.offer (c.inMode strict) = stage.offer c := by
      funext t
      rw [Stage.offer, Stage.offer, Stage.rewriteFirst_inMode]
    funext t
    rw [Stage.walk, Stage.walk, offer, ih]

theorem runStages?_inMode (stages : List Stage) (block : Tree) :
    runStages? (c.inMode strict) stages block = runStages? c stages block := by
  induction stages generalizing block with
  | nil => rfl
  | cons stage stages ih =>
    have run : stage.run? (c.inMode strict) block = stage.run? c block := by
      rw [Stage.run?, Stage.run?, Stage.walk_inMode]
      rfl
    rw [runStages?, runStages?, Stage.survive?, Stage.survive?, run]
    simp only [ih]

end Rewriters

section Functions
variable (config : Config) (strict : Bool) (r : Resource)

theorem rewriteFn?_inMode (functions : List ResourceFn) (f : ResourceFn) :
    rewriteFn? (config.inMode strict) r functions f = rewriteFn? config r functions f := by
  let c := Context.make config r.models (helperTable functions) r.read (scopeOf f)
  have run : runStages? (c.inMode strict) standard f.code.body = runStages? c standard f.code.body :=
    runStages?_inMode c strict standard f.code.body
  exact congrArg (· >>= _) run

theorem rewriteAll?_inMode (indices : List Nat) (functions : List ResourceFn) (s : State) :
    rewriteAll? (config.inMode strict) r indices functions s = rewriteAll? config r indices functions s := by
  induction indices generalizing functions s with
  | nil => rfl
  | cons i is ih =>
    rw [rewriteAll?, rewriteAll?, rewriteAt?, rewriteAt?]
    simp only [rewriteFn?_inMode, ih]

theorem rewriteResource?_inMode : rewriteResource? (config.inMode strict) r = rewriteResource? config r := by
  rw [rewriteResource?, rewriteResource?, rewriteAll?_inMode]

end Functions

end Rewrite

theorem TypedFile.items_inMode (config : Config) (strict : Bool) (promoted : List String) (r : Resource) :
    TypedFile.items (config.inMode strict) promoted r = TypedFile.items config promoted r := rfl

end Retype
