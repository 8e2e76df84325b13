import Retype.Code.Grammar
import Retype.Proofs.Descents

/-! Code is no deeper than its tokens weigh.  Every rule of the grammar takes tokens for what it builds, and what it builds
around its parts has no more levels than these tokens pay for; what is left over is the credit of the rule, and rules that
only wrap what others have read live on it. -/

namespace Retype.Code.Grammar
open Code.Parser
open Rewrite (weights weight nesting descents reserve)

/-- What a parser builds has a property that also tells of the weight of what it took from the front of its input. -/
def Spends {α : Type} (p : Parser α) (post : Nat → α → Prop) : Prop :=
  ∀ s a s', p s = some (a, s') → ∃ front, s = front ++ s' ∧ post (weights front) a

namespace Spends
variable {α β : Type} {post post' : Nat → α → Prop} {mid : Nat → β → Prop}

theorem mono {p : Parser α} (h : Spends p post) (weaker : ∀ n a, post n a → post' n a) : Spends p post' := by
  intro s a s' run
  obtain ⟨front, rfl, built⟩ := h s a s' run
  exact ⟨front, rfl, weaker _ a built⟩

theorem pure {a : α} (h : post 0 a) : Spends (Pure.pure a) post := by
  rintro s _ _ ⟨⟩
  exact ⟨[], rfl, h⟩

theorem failure : Spends (Alternative.failure : Parser α) post := by
  rintro s _ _ ⟨⟩

theorem failed {f : β → Parser α} : Spends (Alternative.failure >>= f) post := by
  rintro s _ _ ⟨⟩

theorem bind {p : Parser β} {f : β → Parser α} (first : Spends p mid)
    (rest : ∀ n b, mid n b → Spends (f b) fun m a => post (n + m) a) : Spends (p >>= f) post := by
  intro s a s' run
  obtain ⟨⟨b, s₁⟩, ran, next⟩ := Option.bind_eq_some_iff.mp run
  obtain ⟨front, rfl, built⟩ := first s b s₁ ran
  obtain ⟨more, rfl, built⟩ := rest _ b built s₁ a s' next
  exact ⟨front ++ more, (List.append_assoc _ _ _).symm, by rwa [Rewrite.weights_append]⟩

theorem ite {cond : Prop} [Decidable cond] {p q : Parser α} (yes : Spends p post) (no : Spends q post) :
    Spends (if cond then p else q) post := by
  split
  · exact yes
  · exact no

theorem orElse {p q : Parser α} (first : Spends p post) (second : Spends q post) : Spends (p <|> q) post := by
  intro s a s' run
  have run : (p s).or (q s) = some (a, s') := by rwa [Option.or_eq_orElse]
  rcases Option.or_eq_some_iff.mp run with ran | ⟨-, ran⟩
  · exact first s a s' ran
  · exact second s a s' ran

theorem given {b : β} {f : β → Parser α} (rest : Spends (f b) post) : Spends (Pure.pure b >>= f) post :=
  fun s a s' run => rest s a s' run

theorem pick {cond : Prop} [Decidable cond] {p q : Parser β} {f : β → Parser α} (yes : Spends p mid) (no : Spends q mid)
    (rest : ∀ n b, mid n b → Spends (f b) fun m a => post (n + m) a) :
    Spends (if cond then p >>= f else q >>= f) post := .ite (.bind yes rest) (.bind no rest)

theorem look {test : Trees → Bool} {f : Bool → Parser α} (rest : ∀ b, Spends (f b) post) :
    Spends (peek test >>= f) post := fun s a s' run => rest (test s) s a s' run

theorem see {f : Trees → Parser α} (rest : ∀ s, Spends (f s) post) : Spends (get >>= f) post :=
  fun s a s' run => rest s s a s' run

theorem all {p : Parser α} (h : Spends p post) {input : Trees} {a : α} (run : p.all input = some a) :
    post (weights input) a := by
  unfold Parser.all at run
  split at run
  · rename_i ran
    cases run
    obtain ⟨front, rfl, built⟩ := h _ _ _ ran
    rwa [List.append_nil]
  · cases run

end Spends

/-- None of the trees has more levels than a number allows, and there is a credit left. -/
def Fit (credit n : Nat) (ts : Trees) : Prop := ∀ t ∈ ts, nesting t + credit ≤ n

@[simp] theorem fit_nil (credit n : Nat) : Fit credit n [] := fun _ mem => (List.not_mem_nil mem).elim

@[simp] theorem fit_cons {credit n : Nat} {t : Tree} {ts : Trees} :
    Fit credit n (t :: ts) ↔ nesting t + credit ≤ n ∧ Fit credit n ts := List.forall_mem_cons

@[simp] theorem fit_append {credit n : Nat} {ts us : Trees} : Fit credit n (ts ++ us) ↔ Fit credit n ts ∧ Fit credit n us :=
  List.forall_mem_append

theorem Fit.mono {credit less n m : Nat} {ts : Trees} (h : Fit credit n ts) (le : n + less ≤ m + credit) : Fit less m ts :=
  fun t mem => by
    have := h t mem
    omega

/-- The tree that a parser builds has no more levels than its tokens pay for, and there is a credit left. -/
abbrev Costs (credit : Nat) (p : Parser Tree) : Prop := Spends p fun n t => nesting t + credit ≤ 32 * n

/-- Each of the trees that a parser builds has no more levels than the tokens of all of them pay for. -/
abbrev CostsAll (credit : Nat) (p : Parser Trees) : Prop := Spends p fun n ts => Fit credit (32 * n) ts

theorem nesting_absent : nesting absent = 0 := rfl
theorem nesting_op (text : String) : nesting (op text) = 0 := rfl

/-- A kind of node that no rewriter is given room at, macro calls aside. -/
def isPlain : Kind → Bool
  | .expr .methodCall | .expr .call | .stmt _ | .block | .macroBody => false
  | _ => true

theorem reserve_of_isPlain {k : Kind} (plain : isPlain k = true) : reserve k = 0 ∧ k ≠ .macroBody := by
  refine ⟨?_, fun same => ?_⟩
  · unfold reserve
    split
    case h_5 => rfl
    all_goals cases plain
  · subst same
    cases plain

theorem nesting_room {k : Kind} {parts : Trees} {credit n : Nat} (opened : k ≠ .macroBody) (own : reserve k + credit ≤ n)
    (paid : Fit (reserve k + credit + 1) n parts) : nesting (.node k parts) + credit ≤ n := by
  have inner : descents (fun _ => false) parts ≤ n - (reserve k + credit) :=
    Rewrite.descents_le.mpr fun t mem => by
      have part : Rewrite.descent (fun _ => false) t + (reserve k + credit + 1) ≤ n := paid t mem
      omega
  have whole : nesting (.node k parts) ≤ reserve k + descents (fun _ => false) parts :=
    Rewrite.descent_node_le opened parts
  omega

theorem nesting_node {k : Kind} {parts : Trees} {credit n : Nat} (plain : isPlain k = true)
    (paid : credit ≤ n ∧ Fit (credit + 1) n parts) : nesting (.node k parts) + credit ≤ n := by
  obtain ⟨none, opened⟩ := reserve_of_isPlain plain
  exact nesting_room opened (by omega) (paid.2.mono (by omega))

/-- The parts of a node, and the tokens that they were read from: none of the parts has more levels than the tokens pay for,
and the credit is left, whatever the parts. -/
def Paid (credit n : Nat) (parts : Trees) : Prop := credit ≤ 32 * n ∧ Fit credit (32 * n) parts

namespace Paid
variable {c d credit n m : Nat} {t : Tree} {ts us : Trees} {k : Kind}

theorem nil : Paid 0 0 [] := ⟨Nat.le_refl _, fit_nil _ _⟩

theorem append (first : Paid c n ts) (rest : Paid d m us) : Paid (c + d) (n + m) (ts ++ us) := by
  obtain ⟨credit₁, fit₁⟩ := first
  obtain ⟨credit₂, fit₂⟩ := rest
  exact ⟨by omega, fit_append.mpr ⟨fit₁.mono (by omega), fit₂.mono (by omega)⟩⟩

theorem one (paid : nesting t + c ≤ 32 * n) : Paid c n [t] :=
  ⟨Nat.le_trans (Nat.le_add_left c _) paid, fit_cons.mpr ⟨paid, fit_nil _ _⟩⟩

theorem cons (first : nesting t + c ≤ 32 * n) (rest : Paid d m ts) : Paid (c + d) (n + m) (t :: ts) := (one first).append rest

theorem list (paid : Fit c (32 * n) ts) : Paid 0 n ts := ⟨Nat.zero_le _, paid.mono (by omega)⟩

theorem free (none : nesting t = 0) (rest : Paid c n ts) : Paid c n (t :: ts) :=
  ⟨rest.1, fit_cons.mpr ⟨by rw [none, Nat.zero_add]; exact rest.1, rest.2⟩⟩

theorem skip (rest : Paid c n ts) : Paid c (m + n) ts := ⟨by have := rest.1; omega, rest.2.mono (by omega)⟩

theorem head (paid : Paid c n (t :: ts)) : nesting t + c ≤ 32 * n := (fit_cons.mp paid.2).1

theorem tail (paid : Paid c n (t :: ts)) : Paid c n ts := ⟨paid.1, (fit_cons.mp paid.2).2⟩

theorem fit (paid : Paid c n ts) (le : credit ≤ c) : Fit credit (32 * n) ts := paid.2.mono (Nat.add_le_add_left le _)

theorem less (paid : Paid c n ts) (le : credit ≤ c) : Paid credit n ts := ⟨Nat.le_trans le paid.1, paid.fit le⟩

theorem room (paid : Paid c n ts) (opened : k ≠ .macroBody) (left : reserve k + credit + 1 ≤ c) :
    nesting (.node k ts) + credit ≤ 32 * n :=
  nesting_room opened (by have := paid.1; omega) (paid.fit left)

theorem node (paid : Paid c n ts) (plain : isPlain k = true) (left : credit + 1 ≤ c) :
    nesting (.node k ts) + credit ≤ 32 * n :=
  nesting_node plain ⟨by have := paid.1; omega, paid.fit left⟩

end Paid

/-- A list pays for the level of its node, unless it is empty, and then there is no level. -/
theorem Fit.node {k : Kind} {credit n : Nat} {parts : Trees} (paid : Fit credit n parts) (plain : isPlain k = true)
    (left : 1 ≤ credit) : nesting (.node k parts) + 0 ≤ n := nesting_node plain ⟨Nat.zero_le _, paid.mono (by omega)⟩

/-- A parser of at least one tree, each with no more levels than the tokens of all of them pay for. -/
abbrev CostsSome (credit : Nat) (p : Parser Trees) : Prop := Spends p (Paid credit)

theorem nesting_lt_node {k : Kind} {parts : Trees} {t : Tree} (opened : k ≠ .macroBody) (mem : t ∈ parts) :
    nesting t < nesting (.node k parts) := by
  have whole : nesting (.node k parts) = reserve k + descents (fun _ => false) parts := Rewrite.descent_node opened rfl
  have part : nesting t < descents (fun _ => false) parts := Rewrite.descent_lt_descents mem
  omega

theorem nesting_lt_group {d : Delim} {body : Trees} {t : Tree} (mem : t ∈ body) : nesting t < nesting (.group d body) :=
  Rewrite.descent_lt_descents mem

theorem nesting_group {d : Delim} {body : Trees} {credit n : Nat} (paid : credit ≤ n ∧ Fit (credit + 1) n body) :
    nesting (.group d body) + credit ≤ n := by
  have inner : descents (fun _ => false) body ≤ n - credit := Rewrite.descents_le.mpr fun t mem => by
    have part : Rewrite.descent (fun _ => false) t + (credit + 1) ≤ n := paid.2 t mem
    omega
  show descents (fun _ => false) body + credit ≤ n
  omega

theorem Costs.less {p : Parser Tree} {credit less : Nat} (h : Costs credit p) (le : less ≤ credit) :
    Costs less p := h.mono fun _ _ paid => Nat.le_trans (Nat.add_le_add_left le _) paid

theorem Costs.after {p : Parser Tree} {credit : Nat} (h : Costs credit p) (m : Nat) :
    Spends p fun n t => nesting t + credit ≤ 32 * (m + n) := h.mono fun _ _ paid => by omega

theorem nesting_literal_le (text : String) : nesting (.leaf (.literal text)) ≤ text.length := by
  show ((Literal.stringValue? text).map String.length).getD 0 ≤ text.length
  cases value : Literal.stringValue? text with
  | none => exact Nat.zero_le _
  | some value => exact Rewrite.length_stringValue?_le value

theorem nesting_token (token : Token) : nesting (.leaf token) + 64 ≤ 32 * weight (.leaf token) := by
  have two := Rewrite.two_le_weight (.leaf token)
  cases token with
  | literal text =>
    have value := nesting_literal_le text
    show _ ≤ 32 * (text.length + 2)
    omega
  | ident _ | lifetime _ | punct _ _ =>
    show 0 + 64 ≤ _
    omega

theorem spends_take (test : Tree → Bool) : Spends (take test) fun n t => test t = true ∧ n = weight t := by
  intro s t s' run
  cases s with
  | nil => cases run
  | cons u s =>
    obtain ⟨passed, same⟩ := Option.ite_none_right_eq_some.mp run
    cases same
    exact ⟨[t], rfl, passed, Nat.add_zero _⟩

theorem costs_take (test : Tree → Bool) : Costs 32 (take test) := (spends_take test).mono fun n t ⟨_, whole⟩ => by
  subst whole
  exact Rewrite.descent_le_weight t

theorem costs_token {test : Tree → Bool} (tokens : ∀ t, test t = true → ∃ token, t = .leaf token) :
    Costs 64 (take test) := (spends_take test).mono fun n t ⟨passed, whole⟩ => by
  obtain ⟨token, rfl⟩ := tokens t passed
  subst whole
  exact nesting_token token

theorem costs_eatAnyWord : Costs 64 eatAnyWord := costs_token fun t passed => by
  obtain ⟨n, rfl⟩ := eq_of_isAnyWord passed
  exact ⟨_, rfl⟩

theorem costs_eatWord (name : String) : Costs 64 (eatWord name) := costs_token fun t passed => by
  obtain ⟨n, rfl⟩ := eq_of_isAnyWord (isAnyWord_of_isWord passed)
  exact ⟨_, rfl⟩

theorem costs_eatIdent : Costs 64 eatIdent := costs_token fun t passed => by
  obtain ⟨n, rfl⟩ := eq_of_isAnyWord (isAnyWord_of_isIdent passed)
  exact ⟨_, rfl⟩

theorem costs_eatLifetime : Costs 64 eatLifetime := costs_token fun t passed => by
  unfold isLifetime at passed
  split at passed
  · rename_i same
    cases same
    exact ⟨_, rfl⟩
  · cases passed

theorem weights_pos {s : Trees} (some : s ≠ []) : 2 ≤ weights s := by
  obtain ⟨t, s, rfl⟩ := List.exists_cons_of_ne_nil some
  have first := Rewrite.two_le_weight t
  rw [weights]
  omega

theorem costs_eatOp {text : String} (sign : text ≠ "") : Costs 64 (eatOp text) := by
  intro s t s' run
  obtain ⟨stands, same⟩ := Option.ite_none_right_eq_some.mp run
  cases same
  have chars : text.toList ≠ [] := fun empty => sign (String.toList_eq_nil_iff.mp empty)
  have some : s.take text.length ≠ [] := by
    intro none
    rcases List.take_eq_nil_iff.mp none with zero | rfl
    · exact chars (List.eq_nil_of_length_eq_zero (String.length_toList.trans zero))
    · rw [isOp] at stands
      obtain ⟨c, cs, shape⟩ := List.exists_cons_of_ne_nil chars
      rw [shape] at stands
      cases cs <;> cases stands
  have two := weights_pos some
  refine ⟨s.take text.length, (List.take_append_drop _ _).symm, ?_⟩
  dsimp only
  rw [nesting_op]
  omega

theorem costs_optional {test : Trees → Bool} {p : Parser Tree} {c : Nat} (h : Costs c p) :
    Costs 0 (Parser.optional test p) := .look fun _ => .ite (h.less (Nat.zero_le _)) (.pure (Nat.le_refl _))

theorem costs_optOp {text : String} (sign : text ≠ "") : Costs 0 (optOp text) := costs_optional (costs_eatOp sign)

theorem costs_optWord (name : String) : Costs 0 (optWord name) := costs_optional (costs_eatWord name)

theorem costs_eatLit : Costs 64 eatLit := by
  intro s t s' run
  unfold eatLit at run
  split at run
  · rename_i sign joint text rest
    obtain ⟨-, same⟩ := Option.ite_none_right_eq_some.mp run
    cases same
    have levels := nesting_token (.literal ("-" ++ text))
    refine ⟨[_, _], rfl, ?_⟩
    rw [weight, String.length_append] at levels
    rw [weights, weights, weights, weight, weight]
    have one : "-".length = 1 := rfl
    show nesting (.leaf (.literal ("-" ++ text))) + 64 ≤ _
    omega
  · rename_i t rest _
    obtain ⟨literal, same⟩ := Option.ite_none_right_eq_some.mp run
    cases same
    have token : ∃ token, t = .leaf token := by
      rcases t with token | _ | _
      · exact ⟨token, rfl⟩
      · cases literal
      · cases literal
    obtain ⟨token, rfl⟩ := token
    exact ⟨[_], rfl, nesting_token token⟩
  · cases run

theorem costsAll_loop {stop : Trees → Bool} {step : Parser Trees} {credit : Nat} (one : CostsAll credit step) (fuel : Nat) :
    CostsAll credit (loop stop step fuel) := by
  induction fuel with
  | zero =>
    intro s ts s' run
    obtain ⟨-, same⟩ := Option.ite_none_right_eq_some.mp run
    cases same
    exact ⟨[], rfl, fit_nil _ _⟩
  | succ fuel ih =>
    refine .look fun _ => .ite (.pure (fit_nil _ _)) (.bind one fun n first paid => .bind ih fun m rest later => .pure ?_)
    exact fit_append.mpr ⟨paid.mono (by omega), later.mono (by omega)⟩

theorem costsAll_many {step : Parser Trees} {credit : Nat} (one : CostsAll credit step) : CostsAll credit (many step) :=
  fun s => costsAll_loop one s.length s

theorem costsAll_manyWhile {more : Trees → Bool} {step : Parser Trees} {credit : Nat} (one : CostsAll credit step) :
    CostsAll credit (manyWhile more step) := fun s => costsAll_loop one s.length s

theorem costsAll_single {p : Parser Tree} {credit : Nat} (one : Costs credit p) :
    CostsAll credit (do pure [← p]) := .bind one fun _ _ paid => .pure (fit_cons.mpr ⟨paid, fit_nil _ _⟩)

theorem costsAll_withOp {text : String} {p : Parser Tree} {credit : Nat} (sign : text ≠ "") (one : Costs credit p) :
    CostsAll credit (do pure [← eatOp text, ← p]) :=
  .bind (costs_eatOp sign) fun _ _ o => .bind one fun _ _ t => .pure ((Paid.cons o <| .cons t .nil).fit (Nat.le_add_left _ _))

section Members
variable {member : Parser Tree} {credit : Nat} (one : Costs credit member)
include one

theorem costsAll_commaSeparated : CostsAll credit (commaSeparated member) := by
  refine costsAll_many (.bind one fun _ _ m => .look fun _ => .ite (.pure ((Paid.one m).fit (Nat.le_refl _))) ?_)
  exact .bind (costs_eatOp (by decide)) fun _ _ comma => .pure ((Paid.cons m <| .cons comma .nil).fit (Nat.le_add_right _ _))

theorem costsAll_commaSeparatedWhile (more : Trees → Bool) : CostsAll credit (commaSeparatedWhile more member) := by
  refine costsAll_manyWhile (.bind one fun _ _ m => .look fun _ => .ite ?_ (.pure ((Paid.one m).fit (Nat.le_refl _))))
  exact .bind (costs_eatOp (by decide)) fun _ _ comma => .pure ((Paid.cons m <| .cons comma .nil).fit (Nat.le_add_right _ _))

theorem costsAll_joined (le : credit ≤ 64) {sep : String} (sign : sep ≠ "") (more : Trees → Bool) :
    CostsSome credit (joined sep more member) := by
  have rest : CostsAll credit (manyWhile (isOp sep) do
      let o ← eatOp sep
      if ← peek more then pure [o, ← member] else pure [o]) := by
    refine costsAll_manyWhile (.bind (costs_eatOp sign) fun _ _ o => .look fun _ => .ite ?_ (.pure ((Paid.one o).fit le)))
    exact .bind one fun _ _ m => .pure ((Paid.cons o <| .cons m .nil).fit (Nat.le_add_left _ _))
  exact .bind one fun _ _ first => .bind rest fun _ _ later => .pure (.cons first (.list later))

end Members

theorem costs_within (d : Delim) {p : Parser Trees} {credit : Nat} (h : CostsAll credit p) : Costs 63 (within d p) := by
  intro s t s' run
  unfold within at run
  split at run
  · rename_i e body rest
    obtain ⟨-, run⟩ := Option.ite_none_right_eq_some.mp run
    obtain ⟨ts, ran, same⟩ := Option.map_eq_some_iff.mp run
    cases same
    have inner : descents (fun _ => false) ts ≤ 32 * weights body + 1 :=
      Rewrite.descents_le.mpr fun t mem => by
        have part : nesting t + credit ≤ 32 * weights body := h.all ran t mem
        show nesting t < _
        omega
    refine ⟨[_], rfl, ?_⟩
    show descents (fun _ => false) ts + 63 ≤ _
    rw [weights, weight, weights]
    omega
  · cases run

theorem nesting_loneSegment? {t name args : Tree} (h : loneSegment? t = some (name, args)) :
    nesting name ≤ nesting t ∧ nesting args ≤ nesting t := by
  unfold loneSegment? at h
  split at h
  · split at h
    · cases h
    · cases h
      have path := nesting_lt_node (k := .type .path) nofun
        (List.mem_singleton_self (.node .path [.node .segment [name, args]]))
      have segment := nesting_lt_node (k := .path) nofun (List.mem_singleton_self (.node .segment [name, args]))
      have first := nesting_lt_node (k := .segment) nofun (List.mem_cons_self (a := name) (l := [args]))
      have second := nesting_lt_node (k := .segment) nofun (List.mem_cons_of_mem name (List.mem_singleton_self args))
      omega
  · cases h

theorem mem_withCommas {ts : Trees} {m : Member} (mem : m ∈ withCommas ts) : m.1 ∈ ts := by
  induction ts with
  | nil => cases mem
  | cons t ts ih =>
    rw [withCommas] at mem
    split at mem
    · exact List.mem_cons_of_mem t (ih mem)
    · rcases List.mem_cons.mp mem with rfl | mem
      · exact List.mem_cons_self
      · exact List.mem_cons_of_mem t (ih mem)

theorem mem_writeMembers {pending : Bool} {ms : List Member} {t : Tree} (mem : t ∈ writeMembers pending ms) :
    t = op "," ∨ ∃ m ∈ ms, m.1 = t := by
  induction ms generalizing pending with
  | nil => cases mem
  | cons m ms ih =>
    obtain ⟨u, comma⟩ := m
    simp only [writeMembers, List.mem_append, List.mem_cons, List.mem_ite_nil_right, List.not_mem_nil, or_false] at mem
    rcases mem with (⟨-, rfl⟩ | rfl | ⟨-, rfl⟩) | mem
    · exact .inl rfl
    · exact .inr ⟨_, List.mem_cons_self, rfl⟩
    · exact .inl rfl
    · exact (ih mem).imp_right fun ⟨m, inside, same⟩ => ⟨m, List.mem_cons_of_mem _ inside, same⟩

theorem Paid.lifetimesFirst {credit n : Nat} {ts : Trees} (paid : Fit credit (32 * n) ts) : Paid 0 n (lifetimesFirst ts) := by
  refine ⟨Nat.zero_le _, fun t mem => ?_⟩
  rcases mem_writeMembers mem with rfl | ⟨m, listed, rfl⟩
  · exact Nat.zero_le _
  · refine Nat.le_trans (Nat.le_add_right _ credit) (paid _ (mem_withCommas ?_))
    rcases List.mem_append.mp listed with listed | listed
    · exact (List.mem_filter.mp listed).1
    · exact (List.mem_filter.mp listed).1

theorem nesting_eq {k : Kind} (opened : k ≠ .macroBody) (parts : Trees) :
    nesting (.node k parts) = reserve k + descents (fun _ => false) parts := Rewrite.descent_node opened rfl

theorem nesting_withAttrs_le (attrs : Trees) (t : Tree) :
    nesting (withAttrs (.node .attrs attrs) t) ≤ nesting t + nesting (.node .attrs attrs) := by
  unfold withAttrs
  split
  · rename_i k own parts
    by_cases closed : k = .macroBody
    · -- What a macro call has below itself is told by its body, whatever stands first.
      subst closed
      have same : nesting (.node .macroBody (.node .attrs (attrs ++ own) :: parts)) =
          nesting (.node .macroBody (.node .attrs own :: parts)) := by
        rcases parts with _ | ⟨a, _ | ⟨b, _ | ⟨c, parts⟩⟩⟩
        · rfl
        · rfl
        · cases b <;> rfl
        · cases b <;> rfl
      exact same ▸ Nat.le_add_right _ _
    · have both : nesting (.node .attrs (attrs ++ own)) ≤ nesting (.node .attrs own) + nesting (.node .attrs attrs) := by
        simp only [nesting_eq (k := .attrs) (by nofun), reserve, Nat.zero_add, Rewrite.descents_le]
        intro t mem
        rcases List.mem_append.mp mem with mem | mem
        · exact Nat.lt_add_left _ (Rewrite.descent_lt_descents mem)
        · exact Nat.lt_add_right _ (Rewrite.descent_lt_descents mem)
      rw [nesting_eq closed, nesting_eq closed]
      show reserve k + max (nesting (.node .attrs (attrs ++ own)) + 1) (descents _ parts) ≤
        reserve k + max (nesting (.node .attrs own) + 1) (descents _ parts) + _
      omega
  · exact Nat.le_add_right _ _

theorem Fit.setLastArguments {credit n : Nat} {args : Tree} {ts : Trees} (h : Fit credit n ts)
    (le : nesting args + credit + 1 ≤ n) : Fit credit n (setLastArguments args ts) := by
  fun_induction Grammar.setLastArguments args ts with
  | case1 => exact h
  | case2 name old =>
    have first := nesting_lt_node (k := .segment) nofun (List.mem_cons_self (a := name) (l := [old]))
    have segment := (fit_cons.mp h).1
    exact fit_cons.mpr ⟨nesting_node rfl (by simp; omega), fit_nil _ _⟩
  | case3 t ts _ ih => exact fit_cons.mpr ⟨(fit_cons.mp h).1, ih (fit_cons.mp h).2⟩

end Retype.Code.Grammar
