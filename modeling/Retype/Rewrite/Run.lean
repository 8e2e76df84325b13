import Retype.Resource
import Retype.Rewrite.Stage

/-! A run over all functions of a resource.  They are rewritten by role, so that the signatures of helpers are
settled before the helpers themselves are rewritten; signature edits are made after each function. -/

namespace Retype.Rewrite
open Retype.Code

/-- The signatures of the helpers as calls see them. -/
def helperTable (functions : List ResourceFn) : Table HelperSignature :=
  Table.ofList ((functions.filter fun f => !f.role.isCrud).map fun f => (f.name, HelperSignature.ofFn f.code))

def scopeOf (f : ResourceFn) : Scope := ⟨f.name, f.role, f.varModel, f.accessor⟩

def editFirst (name : String) (edit : Fn → Fn) : List ResourceFn → List ResourceFn
  | [] => []
  | f :: fs => if f.name = name then { f with code := edit f.code } :: fs else f :: editFirst name edit fs

def applyPending (s : State) (functions : List ResourceFn) : List ResourceFn × State :=
  (s.pending.foldl (fun fs (name, e) => editFirst name e.apply fs) functions, { s with pending := [] })

def rewriteFn? (config : Config) (r : Resource) (functions : List ResourceFn) (f : ResourceFn) :
    StateT State Option ResourceFn := do
  let c := Context.make config r.models (helperTable functions) r.read (scopeOf f)
  let body ← runStages? c standard f.code.body
  return { f with code := { f.code with body := body } }

/-- Rewrites the function at a position and makes the edits that this asks for. -/
def rewriteAt? (config : Config) (r : Resource) (functions : List ResourceFn) (s : State) (index : Nat) :
    Option (List ResourceFn × State) :=
  match functions[index]? with
  | none => some (functions, s)
  | some f => ((rewriteFn? config r functions f).run s).map fun (f, s) => applyPending s (functions.set index f)

/-- The positions of functions, role by role. -/
def order (functions : List ResourceFn) : List Nat :=
  Role.all.flatMap fun role => ((functions.zipIdx).filter fun (f, _) => f.role = role).map (·.2)

/-- Rewrites the functions at positions one after another. -/
def rewriteAll? (config : Config) (r : Resource) : List Nat → List ResourceFn → State →
    Option (List ResourceFn × State)
  | [], functions, s => some (functions, s)
  | i :: is, functions, s =>
    (rewriteAt? config r functions s i).bind fun (functions, s) => rewriteAll? config r is functions s

/-- Rewrites all functions of a resource; there is no answer if the process dies of one of them. -/
def rewriteResource? (config : Config) (r : Resource) : Option (Resource × State) :=
  (rewriteAll? config r (order r.functions) r.functions {}).map fun (functions, s) =>
    ({ r with functions := functions }, s)

@[simp] theorem applyPending_pending (s : State) (functions : List ResourceFn) :
    (applyPending s functions).2.pending = [] := rfl

end Retype.Rewrite
