import Retype.Rewrite.Run
import Retype.Proofs.TrailingRead

/-! Runs over all functions of a resource.  A run changes bodies, types of parameters and results, and nothing else;
what it leaves of each function is what a run over its body leaves, but for edits that calls ask for. -/

namespace Retype.Rewrite
open Retype.Code

/-- What a run leaves of a function. -/
def frame (f : ResourceFn) : ResourceFn :=
  { f with code := { f.code with inputs := [], output := Tree.absent, body := Tree.absent } }

theorem any_of_frames {p : ResourceFn → Bool} (same : ∀ f, p (frame f) = p f) {fs gs : List ResourceFn}
    (framed : fs.map frame = gs.map frame) : fs.any p = gs.any p := by
  have through : ∀ hs : List ResourceFn, hs.any p = (hs.map frame).any p := by
    intro hs
    rw [List.any_map]
    exact congrArg hs.any (funext fun f => (same f).symm)
  rw [through, framed, ← through]

theorem frame_editFirst (name : String) (e : SignatureEdit) (fs : List ResourceFn) :
    (editFirst name e.apply fs).map frame = fs.map frame := by
  induction fs with
  | nil => rfl
  | cons f fs ih =>
    unfold editFirst
    split
    · rfl
    · rw [List.map_cons, List.map_cons, ih]

theorem frame_applyPending (s : State) (fs : List ResourceFn) :
    (applyPending s fs).1.map frame = fs.map frame := by
  unfold applyPending
  generalize s.pending = pending
  induction pending generalizing fs with
  | nil => rfl
  | cons entry pending ih => exact (ih _).trans (frame_editFirst _ _ _)

theorem map_set_of_eq {α β : Type} {g : α → β} {xs : List α} {i : Nat} {x y : α} (found : xs[i]? = some x)
    (same : g y = g x) : (xs.set i y).map g = xs.map g := by
  refine List.ext_getElem? fun j => ?_
  by_cases here : i = j
  · subst here
    rw [List.getElem?_map, List.getElem?_map, List.getElem?_set_self', found]
    exact congrArg some same
  · rw [List.getElem?_map, List.getElem?_map, List.getElem?_set_ne here]

/-- A property of functions that edits of signatures keep. -/
def KeptByEdits (p : ResourceFn → Prop) : Prop :=
  ∀ (f : ResourceFn) (e : SignatureEdit), p f → p { f with code := e.apply f.code }

theorem KeptByEdits.editFirst {p : ResourceFn → Prop} (kept : KeptByEdits p) {name : String} {e : SignatureEdit}
    {fs : List ResourceFn} {i : Nat} (h : ∀ f, fs[i]? = some f → p f) :
    ∀ f, (editFirst name e.apply fs)[i]? = some f → p f := by
  induction fs generalizing i with
  | nil => exact h
  | cons g fs ih =>
    unfold Rewrite.editFirst
    split
    · cases i with
      | zero =>
        rintro f ⟨⟩
        exact kept g e (h g rfl)
      | succ i => exact h
    · cases i with
      | zero => exact h
      | succ i => exact ih h

theorem KeptByEdits.applyPending {p : ResourceFn → Prop} (kept : KeptByEdits p) {s : State} {fs : List ResourceFn}
    {i : Nat} (h : ∀ f, fs[i]? = some f → p f) : ∀ f, (applyPending s fs).1[i]? = some f → p f := by
  unfold Rewrite.applyPending
  generalize s.pending = pending
  induction pending generalizing fs with
  | nil => exact h
  | cons entry pending ih => exact ih (kept.editFirst h)

theorem isHelper_make {config : Config} {models : ModelSet} {fs : List ResourceFn} {readFn : String}
    {scope : Scope} (name : String) :
    isHelper (Context.make config models (helperTable fs) readFn scope) name =
      fs.any fun f => !f.role.isCrud && f.name == name := by
  have table := Table.isSome_get?_ofList
    ((fs.filter fun f => !f.role.isCrud).map fun f => (f.name, HelperSignature.ofFn f.code)) name
  refine Eq.trans table ?_
  rw [List.any_map, List.any_filter]
  rfl

theorem rewriteFn?_eq_some {config : Config} {r : Resource} {fs : List ResourceFn} {f f' : ResourceFn} {s s' : State}
    (h : (rewriteFn? config r fs f).run s = some (f', s')) :
    ∃ body, (runStages? (Context.make config r.models (helperTable fs) r.read (scopeOf f)) standard f.code.body).run s =
      some (body, s') ∧ f' = { f with code := { f.code with body := body } } := by
  obtain ⟨⟨body, s₁⟩, run, h⟩ := Option.bind_eq_some_iff.mp h
  cases h
  exact ⟨body, run, rfl⟩

section Run
variable {config : Config} {r : Resource} {p : ResourceFn → Prop}

theorem rewriteAt?_spec (kept : KeptByEdits p)
    (rewritten : ∀ fs f f' s s', fs.map frame = r.functions.map frame → f ∈ fs →
      (rewriteFn? config r fs f).run s = some (f', s') → p f') {j : Nat} {fs fs' : List ResourceFn} {s s' : State}
    (h : rewriteAt? config r fs s j = some (fs', s')) (framed : fs.map frame = r.functions.map frame) :
    fs'.map frame = r.functions.map frame ∧ (∀ f, fs'[j]? = some f → p f) ∧
      ∀ i : Nat, (∀ f, fs[i]? = some f → p f) → ∀ f, fs'[i]? = some f → p f := by
  unfold rewriteAt? at h
  split at h
  · rename_i outside
    cases h
    refine ⟨framed, fun f found => ?_, fun i done => done⟩
    rw [outside] at found
    cases found
  · rename_i g inside
    obtain ⟨⟨g', s₁⟩, run, h⟩ := Option.map_eq_some_iff.mp h
    have own := rewritten fs g g' s s₁ framed (List.mem_of_getElem? inside) run
    have h : applyPending s₁ (fs.set j g') = (fs', s') := h
    have kept_frame : frame g' = frame g := by
      obtain ⟨body, -, rfl⟩ := rewriteFn?_eq_some run
      rfl
    have edited : ∀ i : Nat, (∀ f, (fs.set j g')[i]? = some f → p f) →
        ∀ f, fs'[i]? = some f → p f := by
      intro i done
      have after := kept.applyPending (s := s₁) done
      rwa [h] at after
    refine ⟨?_, edited j ?_, fun i done => edited i ?_⟩
    · have same := frame_applyPending s₁ (fs.set j g')
      rw [h, map_set_of_eq inside kept_frame] at same
      exact same.trans framed
    · intro f found
      rw [List.getElem?_set_self', inside] at found
      cases found
      exact own
    · intro f found
      by_cases at_j : j = i
      · subst at_j
        rw [List.getElem?_set_self', inside] at found
        cases found
        exact own
      · rw [List.getElem?_set_ne at_j] at found
        exact done f found

/-- What each function is left with, whatever state the run is in and whatever is done to the others. -/
theorem rewriteAll?_spec (kept : KeptByEdits p)
    (rewritten : ∀ fs f f' s s', fs.map frame = r.functions.map frame → f ∈ fs →
      (rewriteFn? config r fs f).run s = some (f', s') → p f') {is : List Nat} {fs fs' : List ResourceFn} {s s' : State}
    (h : rewriteAll? config r is fs s = some (fs', s')) (framed : fs.map frame = r.functions.map frame) :
    fs'.map frame = r.functions.map frame ∧
      ∀ i : Nat, (i ∈ is ∨ ∀ f, fs[i]? = some f → p f) → ∀ f, fs'[i]? = some f → p f := by
  induction is generalizing fs s with
  | nil =>
    cases h
    refine ⟨framed, fun i done => ?_⟩
    rcases done with mem | done
    · cases mem
    · exact done
  | cons j is ih =>
    obtain ⟨⟨fs₁, s₁⟩, first, h⟩ := Option.bind_eq_some_iff.mp h
    obtain ⟨framed₁, own, others⟩ := rewriteAt?_spec kept rewritten first framed
    obtain ⟨framed', done'⟩ := ih h framed₁
    refine ⟨framed', fun i done => done' i ?_⟩
    rcases done with mem | done
    · rcases List.mem_cons.mp mem with rfl | mem
      · exact .inr own
      · exact .inl mem
    · exact .inr (others i done)

theorem mem_order {fs : List ResourceFn} {i : Nat} (inside : i < fs.length) : i ∈ order fs := by
  rw [order, List.mem_flatMap]
  refine ⟨fs[i].role, by cases fs[i].role <;> decide, ?_⟩
  refine List.mem_map.mpr ⟨(fs[i], i), List.mem_filter.mpr ⟨?_, ?_⟩, rfl⟩
  · exact List.mk_mem_zipIdx_iff_getElem?.mpr (List.getElem?_eq_getElem inside)
  · exact decide_eq_true rfl

theorem rewriteResource?_spec (kept : KeptByEdits p)
    (rewritten : ∀ fs f f' s s', fs.map frame = r.functions.map frame → f ∈ fs →
      (rewriteFn? config r fs f).run s = some (f', s') → p f') {r' : Resource} {s : State}
    (h : rewriteResource? config r = some (r', s)) : r' = { r with functions := r'.functions } ∧
      r'.functions.map frame = r.functions.map frame ∧ ∀ f ∈ r'.functions, p f := by
  obtain ⟨⟨fs, s'⟩, run, same⟩ := Option.map_eq_some_iff.mp h
  cases same
  obtain ⟨framed, done⟩ := rewriteAll?_spec kept rewritten run rfl
  refine ⟨rfl, framed, fun f mem => ?_⟩
  obtain ⟨i, inside, found⟩ := List.mem_iff_getElem.mp mem
  have length : fs.length = r.functions.length := by simpa only [List.length_map] using congrArg List.length framed
  exact done i (.inl (mem_order (length ▸ inside))) f (List.getElem?_eq_some_iff.mpr ⟨inside, found⟩)

/-- A run changes nothing but the functions, and of these nothing that their frames show. -/
theorem rewriteResource?_frame {r' : Resource} {s : State} (h : rewriteResource? config r = some (r', s)) :
    r' = { r with functions := r'.functions } ∧ r'.functions.map frame = r.functions.map frame := by
  obtain ⟨same, framed, -⟩ := rewriteResource?_spec (p := fun _ => True) (fun _ _ _ => trivial)
    (fun _ _ _ _ _ _ _ _ => trivial) h
  exact ⟨same, framed⟩

end Run

end Retype.Rewrite
