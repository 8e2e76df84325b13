import Retype.Code.Grammar

/-! Types read off tokens that are alike.  Which signs touch is told by the tokens, and the rules for types look at it
only where an operator has several signs.  So streams that differ in nothing else are read as one type. -/

namespace Retype.Code

mutual
def Tree.same : Tree → Tree → Bool
  | .leaf a, .leaf b => a == b
  | .group d x, .group e y => d == e && Trees.same x y
  | .node k x, .node l y => k == l && Trees.same x y
  | _, _ => false

def Trees.same : List Tree → List Tree → Bool
  | [], [] => true
  | t :: ts, u :: us => t.same u && Trees.same ts us
  | _, _ => false
end

mutual
theorem Tree.same_iff : (t u : Tree) → (t.same u = true ↔ t = u)
  | .leaf a, .leaf b => by rw [Tree.same, beq_iff_eq, Tree.leaf.injEq]
  | .group d x, .group e y => by
    rw [Tree.same, Bool.and_eq_true, beq_iff_eq, Trees.same_iff x y, Tree.group.injEq]
  | .node k x, .node l y => by
    rw [Tree.same, Bool.and_eq_true, beq_iff_eq, Trees.same_iff x y, Tree.node.injEq]
  | .leaf _, .group _ _ | .leaf _, .node _ _ | .group _ _, .leaf _ | .group _ _, .node _ _ | .node _ _, .leaf _
  | .node _ _, .group _ _ => by simp [Tree.same]

theorem Trees.same_iff : (x y : List Tree) → (Trees.same x y = true ↔ x = y)
  | [], [] => by simp [Trees.same]
  | t :: ts, u :: us => by
    rw [Trees.same, Bool.and_eq_true, Tree.same_iff t u, Trees.same_iff ts us, List.cons.injEq]
  | [], _ :: _ | _ :: _, [] => by simp [Trees.same]
end

instance : DecidableEq Tree := fun t u => decidable_of_iff (t.same u = true) (t.same_iff u)

namespace Grammar
open Code.Parser

/-- The operators of several signs that the rules for types look for. -/
def typeOps : List String := ["::", "<=", "!=", "->", "..."]

/-- What stands after a sign is no type: an expression after `;`, unparsed code after `#` and `!`. -/
def keepsNext (t : Tree) (s u : Trees) : Bool :=
  if t.isOp ";" then s == u
  else if t.isOp "#" || t.isOp "!" then s.head? == u.head?
  else true

/-- The tokens are the same, signs whatever they touch. -/
def alikeToken : Token → Token → Bool
  | .punct a _, .punct b _ => a == b
  | a, b => a == b

mutual
/-- The same token, or groups of the same kind with streams in them that are alike; a block is the same. -/
def alikeTree : Tree → Tree → Bool
  | .leaf a, .leaf b => alikeToken a b
  | .group d x, .group e y => d == e && if d == .brace then x == y else alike x y
  | .node k x, .node l y => k == l && x == y
  | _, _ => false

/-- The streams have the same tokens, those of code that is no type touch alike, and elsewhere they touch alike as far
as operators of types go. -/
def alike : Trees → Trees → Bool
  | [], [] => true
  | t :: s, u :: v =>
    alikeTree t u && (typeOps.all fun w => isOp w (t :: s) == isOp w (u :: v)) && keepsNext t s v && alike s v
  | _, _ => false
end

theorem alike_cons {t u : Tree} {s v : Trees} : alike (t :: s) (u :: v) = true ↔ alikeTree t u = true ∧
    (∀ w ∈ typeOps, isOp w (t :: s) = isOp w (u :: v)) ∧ keepsNext t s v = true ∧ alike s v = true := by
  rw [alike, Bool.and_eq_true, Bool.and_eq_true, Bool.and_eq_true, List.all_eq_true, and_assoc, and_assoc]
  simp only [beq_iff_eq]

theorem alike_cons_left {t : Tree} {s u : Trees} (h : alike (t :: s) u = true) : ∃ u' v, u = u' :: v := by
  cases u with
  | nil => simp [alike] at h
  | cons u' v => exact ⟨u', v, rfl⟩

theorem alike_nil {u : Trees} (h : alike [] u = true) : u = [] := by
  cases u with
  | nil => rfl
  | cons u v => simp [alike] at h

theorem alike_length {s u : Trees} (h : alike s u = true) : s.length = u.length := by
  induction s generalizing u with
  | nil => rw [alike_nil h]
  | cons t s ih =>
    obtain ⟨u', v, rfl⟩ := alike_cons_left h
    rw [List.length_cons, List.length_cons, ih (alike_cons.mp h).2.2.2]

theorem alike_drop {s u : Trees} (h : alike s u = true) (n : Nat) : alike (s.drop n) (u.drop n) = true := by
  induction n generalizing s u with
  | zero => exact h
  | succ n ih =>
    cases s with
    | nil =>
      rw [alike_nil h]
      rfl
    | cons t s =>
      obtain ⟨u', v, rfl⟩ := alike_cons_left h
      exact ih (alike_cons.mp h).2.2.2

theorem punct_of_alikeToken {a : String} {j : Bool} {b : Token} (h : alikeToken (.punct a j) b = true) :
    ∃ k, b = .punct a k := by
  cases b with
  | punct b k =>
    obtain rfl : a = b := beq_iff_eq.mp h
    exact ⟨k, rfl⟩
  | ident _ | lifetime _ | literal _ => cases h

theorem leaf_of_alikeTree {a : Token} {u : Tree} (h : alikeTree (.leaf a) u = true) :
    ∃ b, u = .leaf b ∧ alikeToken a b = true := by
  cases u with
  | leaf b => exact ⟨b, rfl, h⟩
  | group _ _ | node _ _ => simp [alikeTree] at h

theorem group_of_alikeTree {d : Delim} {x : Trees} {u : Tree} (h : alikeTree (.group d x) u = true) :
    ∃ y, u = .group d y ∧ (if d == .brace then x == y else alike x y) = true := by
  cases u with
  | group e y =>
    rw [alikeTree, Bool.and_eq_true, beq_iff_eq] at h
    obtain ⟨rfl, body⟩ := h
    exact ⟨y, rfl, body⟩
  | leaf _ | node _ _ => simp [alikeTree] at h

theorem eq_of_alikeTree_node {k : Kind} {x : Trees} {u : Tree} (h : alikeTree (.node k x) u = true) : u = .node k x := by
  cases u with
  | node l y =>
    rw [alikeTree, Bool.and_eq_true, beq_iff_eq, beq_iff_eq] at h
    rw [h.1, h.2]
  | leaf _ | group _ _ => simp [alikeTree] at h

mutual
theorem size_of_alikeTree : (t u : Tree) → alikeTree t u = true → t.size = u.size
  | .leaf _, .leaf _, _ => rfl
  | .group d x, .group e y, h => by
    rw [alikeTree, Bool.and_eq_true] at h
    have body : Trees.size x = Trees.size y := by
      obtain ⟨-, h⟩ := h
      split at h
      · rw [beq_iff_eq.mp h]
      · exact size_of_alike x y h
    rw [Tree.size, Tree.size, body]
  | .node k x, .node l y, h => by
    rw [alikeTree, Bool.and_eq_true] at h
    rw [Tree.size, Tree.size, beq_iff_eq.mp h.2]
  | .leaf _, .group _ _, h | .leaf _, .node _ _, h | .group _ _, .leaf _, h | .group _ _, .node _ _, h
  | .node _ _, .leaf _, h | .node _ _, .group _ _, h => by simp [alikeTree] at h

theorem size_of_alike : (s u : Trees) → alike s u = true → Trees.size s = Trees.size u
  | [], u, h => by rw [alike_nil h]
  | t :: s, [], h => by simp [alike] at h
  | t :: s, u :: v, h => by
    obtain ⟨first, -, -, rest⟩ := alike_cons.mp h
    rw [Trees.size, Trees.size, size_of_alikeTree t u first, size_of_alike s v rest]
end

theorem alikeToken_refl (t : Token) : alikeToken t t = true := by
  unfold alikeToken
  split <;> exact beq_self_eq_true _

mutual
theorem alikeTree_refl : (t : Tree) → alikeTree t t = true
  | .leaf t => alikeToken_refl t
  | .group d x => by
    rw [alikeTree, beq_self_eq_true, beq_self_eq_true, alike_refl x, ite_self]
    rfl
  | .node k x => by
    rw [alikeTree, beq_self_eq_true, beq_self_eq_true]
    rfl

theorem alike_refl : (s : Trees) → alike s s = true
  | [] => rfl
  | t :: s => by
    refine alike_cons.mpr ⟨alikeTree_refl t, fun _ _ => rfl, ?_, alike_refl s⟩
    unfold keepsNext
    split
    · exact beq_self_eq_true s
    · split
      · exact beq_self_eq_true _
      · rfl
end

/-- The test tells no streams apart that are alike. -/
def Sees (test : Trees → Bool) : Prop := ∀ ⦃s u⦄, alike s u = true → test s = test u

namespace Sees
variable {a b : Trees → Bool}

theorem and (first : Sees a) (second : Sees b) : Sees fun s => a s && b s := by
  intro s u h
  dsimp only
  rw [first h, second h]

theorem or (first : Sees a) (second : Sees b) : Sees fun s => a s || b s := by
  intro s u h
  dsimp only
  rw [first h, second h]

theorem not (first : Sees a) : Sees fun s => !a s := by
  intro s u h
  dsimp only
  rw [first h]

theorem const (x : Bool) : Sees fun _ => x := fun _ _ _ => rfl

theorem either (first : Sees a) (second : Sees b) : Sees (Parser.either a b) := first.or second

theorem ahead (n : Nat) (first : Sees a) : Sees (Parser.ahead n a) := fun _ _ h => first (alike_drop h n)

theorem isEmpty : Sees List.isEmpty := by
  intro s u h
  rw [Bool.eq_iff_iff, List.isEmpty_iff_length_eq_zero, List.isEmpty_iff_length_eq_zero, alike_length h]

/-- A test of the first token, whatever it touches, or of the kind of the first group. -/
theorem front {test : Trees → Bool} (same : ∀ t s v, test (t :: s) = test (t :: v))
    (signs : ∀ a j k s, test (.leaf (.punct a j) :: s) = test (.leaf (.punct a k) :: s))
    (groups : ∀ d x y s, test (.group d x :: s) = test (.group d y :: s)) : Sees test := by
  intro s u h
  cases s with
  | nil => rw [alike_nil h]
  | cons t s =>
    obtain ⟨u, v, rfl⟩ := alike_cons_left h
    have first := (alike_cons.mp h).1
    cases t with
    | leaf a =>
      obtain ⟨b, rfl, first⟩ := leaf_of_alikeTree first
      cases a with
      | punct a j =>
        obtain ⟨k, rfl⟩ := punct_of_alikeToken first
        rw [signs a j k, same]
      | ident _ | lifetime _ | literal _ => rw [eq_of_beq first, same]
    | group d x =>
      obtain ⟨y, rfl, -⟩ := group_of_alikeTree first
      rw [groups d x y, same]
    | node k x => rw [eq_of_alikeTree_node first, same]

theorem isWord (name : String) : Sees (Parser.isWord name) :=
  front (fun t _ _ => by rcases t with (_ | _ | _ | _) | _ | _ <;> rfl) (fun _ _ _ _ => rfl) fun _ _ _ _ => rfl

theorem isAnyWord : Sees Parser.isAnyWord :=
  front (fun t _ _ => by rcases t with (_ | _ | _ | _) | _ | _ <;> rfl) (fun _ _ _ _ => rfl) fun _ _ _ _ => rfl

theorem isIdent : Sees Parser.isIdent :=
  front (fun t _ _ => by rcases t with (_ | _ | _ | _) | _ | _ <;> rfl) (fun _ _ _ _ => rfl) fun _ _ _ _ => rfl

theorem isLifetime : Sees Parser.isLifetime :=
  front (fun t _ _ => by rcases t with (_ | _ | _ | _) | _ | _ <;> rfl) (fun _ _ _ _ => rfl) fun _ _ _ _ => rfl

theorem isGroup (d : Delim) : Sees (Parser.isGroup d) :=
  front (fun t _ _ => by rcases t with (_ | _ | _ | _) | _ | _ <;> rfl) (fun _ _ _ _ => rfl) fun _ _ _ _ => rfl

theorem sign (c : Char) : Sees (opIn [c]) :=
  front (fun t _ _ => by rcases t with (_ | _ | _ | _) | _ | _ <;> rfl) (fun _ _ _ _ => rfl) fun _ _ _ _ => rfl

/-- Operators of one sign are seen whatever they touch, and the others that types have. -/
theorem isOp {w : String} (known : (w.toList.length == 1 || typeOps.contains w) = true) : Sees (Parser.isOp w) := by
  rcases Bool.or_eq_true_iff.mp known with one | listed
  · obtain ⟨c, single⟩ := List.length_eq_one_iff.mp (beq_iff_eq.mp one)
    have same : Parser.isOp w = opIn [c] := by
      funext s
      rw [Parser.isOp, single]
    rw [same]
    exact sign c
  · intro s u h
    cases s with
    | nil => rw [alike_nil h]
    | cons t s =>
      obtain ⟨u, v, rfl⟩ := alike_cons_left h
      exact (alike_cons.mp h).2.1 w (List.contains_iff_mem.mp listed)

def isNumberLit : Trees → Bool
  | .leaf (.literal t) :: _ => isNumber t
  | _ => false

/-- The stream begins with a literal without a sign in front. -/
def isPlainLit : Trees → Bool
  | .leaf (.literal _) :: _ => true
  | .leaf (.ident n) :: _ => n == "true" || n == "false"
  | _ => false

theorem isLit_eq (s : Trees) : Parser.isLit s = (isPlainLit s || Parser.isOp "-" s && Parser.ahead 1 isNumberLit s) := by
  unfold Parser.isLit
  split
  · rfl
  · change _ = (_ || false && _)
    rw [Bool.false_and, Bool.or_false]
    rfl
  · rfl
  · rename_i noLiteral noIdent noNumber
    have plain : isPlainLit s = false := by
      unfold isPlainLit
      split
      · exact (noLiteral _ _ rfl).elim
      · exact (noIdent _ _ rfl).elim
      · rfl
    have number : (Parser.isOp "-" s && Parser.ahead 1 isNumberLit s) = false := by
      rw [Bool.eq_false_iff, ne_eq, Bool.and_eq_true]
      rintro ⟨minus, number⟩
      cases s with
      | nil => cases minus
      | cons t s =>
        unfold Parser.ahead isNumberLit at number
        split at number
        · rename_i later
          rw [List.drop_succ_cons, List.drop_zero] at later
          subst later
          obtain ⟨j, rfl⟩ := Parser.eq_of_isOp rfl minus
          exact noNumber _ _ _ rfl
        · cases number
    rw [plain, number]
    rfl

theorem isLit : Sees Parser.isLit := by
  have same : Parser.isLit = fun s => isPlainLit s || (Parser.isOp "-" s && Parser.ahead 1 isNumberLit s) :=
    funext isLit_eq
  have plain : Sees isPlainLit :=
    front (fun t _ _ => by rcases t with (_ | _ | _ | _) | _ | _ <;> rfl) (fun _ _ _ _ => rfl) fun _ _ _ _ => rfl
  have number : Sees isNumberLit :=
    front (fun t _ _ => by rcases t with (_ | _ | _ | _) | _ | _ <;> rfl) (fun _ _ _ _ => rfl) fun _ _ _ _ => rfl
  rw [same]
  exact plain.or ((isOp (by decide)).and (number.ahead 1))

end Sees

/-- Whatever the parser reads of a stream it reads of one that is alike, and what it leaves is alike. -/
def Reads {α : Type} (p : Parser α) : Prop :=
  ∀ ⦃s u⦄, alike s u = true → ∀ ⦃a s'⦄, p s = some (a, s') → ∃ u', p u = some (a, u') ∧ alike s' u' = true

namespace Reads
variable {α β : Type}

theorem pure (a : α) : Reads (Pure.pure a) := by
  rintro s u h _ _ ⟨⟩
  exact ⟨u, rfl, h⟩

theorem failure : Reads (Alternative.failure : Parser α) := by
  rintro s u h _ _ ⟨⟩

theorem bind {p : Parser β} {f : β → Parser α} (first : Reads p) (rest : ∀ b, Reads (f b)) : Reads (p >>= f) := by
  intro s u h a s' run
  obtain ⟨⟨b, s₁⟩, ran, run⟩ := Option.bind_eq_some_iff.mp run
  obtain ⟨u₁, ran', h₁⟩ := first h ran
  obtain ⟨u', run', h'⟩ := rest b h₁ run
  exact ⟨u', Option.bind_eq_some_iff.mpr ⟨(b, u₁), ran', run'⟩, h'⟩

theorem ite {cond : Prop} [Decidable cond] {p q : Parser α} (yes : Reads p) (no : Reads q) :
    Reads (if cond then p else q) := by
  split
  · exact yes
  · exact no

theorem peek {test : Trees → Bool} (sees : Sees test) : Reads (Parser.peek test) := by
  rintro s u h _ _ ⟨⟩
  exact ⟨u, congrArg some (congrArg (·, u) (sees h).symm), h⟩

theorem atEnd : Reads Parser.atEnd := peek .isEmpty

theorem optional {test : Trees → Bool} {p : Parser Tree} (sees : Sees test) (read : Reads p) :
    Reads (Parser.optional test p) := .bind (.peek sees) fun _ => .ite read (.pure _)

theorem loop {stop : Trees → Bool} {step : Parser Trees} (sees : Sees stop) (one : Reads step) (fuel : Nat) :
    Reads (Parser.loop stop step fuel) := by
  have ends : Sees fun s => s.isEmpty || stop s := Sees.isEmpty.or sees
  induction fuel with
  | zero =>
    intro s u h a s' run
    obtain ⟨done, same⟩ := Option.ite_none_right_eq_some.mp run
    cases same
    exact ⟨u, if_pos ((ends h).symm.trans done), h⟩
  | succ fuel ih => exact .bind (.peek ends) fun _ => .ite (.pure _) (.bind one fun _ => .bind ih fun _ => .pure _)

theorem byLength {p : Nat → Parser α} (read : ∀ n, Reads (p n)) : Reads fun s => p s.length s := by
  intro s u h a s' run
  dsimp only
  rw [← alike_length h]
  exact read _ h run

theorem many {step : Parser Trees} (one : Reads step) : Reads (Parser.many step) :=
  byLength fun n => loop (.const false) one n

theorem manyWhile {more : Trees → Bool} {step : Parser Trees} (sees : Sees more) (one : Reads step) :
    Reads (Parser.manyWhile more step) := byLength fun n => loop sees.not one n

theorem all {p : Parser α} (read : Reads p) {s u : Trees} (h : alike s u = true) {a : α} (run : p.all s = some a) :
    p.all u = some a := by
  unfold Parser.all at run ⊢
  split at run
  · rename_i ran
    cases run
    obtain ⟨u', ran', h'⟩ := read h ran
    obtain rfl := alike_nil h'
    have ran' : p.run u = some (a, []) := ran'
    rw [ran']
  · cases run

theorem take {test : Tree → Bool}
    (words : ∀ t, test t = true → ∃ w, t = .leaf w ∧ ∀ b, alikeToken w b = true → b = w) : Reads (Parser.take test) := by
  intro s u h a s' run
  cases s with
  | nil => cases run
  | cons t s =>
    obtain ⟨u, v, rfl⟩ := alike_cons_left h
    obtain ⟨same, -, -, rest⟩ := alike_cons.mp h
    obtain ⟨passes, run⟩ := Option.ite_none_right_eq_some.mp run
    cases run
    obtain ⟨w, rfl, only⟩ := words _ passes
    obtain ⟨b, rfl, same⟩ := leaf_of_alikeTree same
    obtain rfl := only b same
    exact ⟨v, if_pos passes, rest⟩

theorem isLeaf_of_isAnyWord {t : Tree} (h : isAnyWord [t] = true) :
    ∃ w, t = .leaf w ∧ ∀ b, alikeToken w b = true → b = w := by
  obtain ⟨n, rfl⟩ := eq_of_isAnyWord h
  exact ⟨.ident n, rfl, fun b same => (beq_iff_eq.mp same).symm⟩

theorem isLeaf_of_isLifetime {t : Tree} (h : isLifetime [t] = true) :
    ∃ w, t = .leaf w ∧ ∀ b, alikeToken w b = true → b = w := by
  rcases t with (_ | n | _ | _) | _ | _
  case leaf.lifetime => exact ⟨.lifetime n, rfl, fun b same => (beq_iff_eq.mp same).symm⟩
  all_goals cases h

theorem eatWord (name : String) : Reads (Parser.eatWord name) :=
  take fun _ h => isLeaf_of_isAnyWord (isAnyWord_of_isWord h)

theorem eatAnyWord : Reads Parser.eatAnyWord := take fun _ h => isLeaf_of_isAnyWord h

theorem eatIdent : Reads Parser.eatIdent := take fun _ h => isLeaf_of_isAnyWord (isAnyWord_of_isIdent h)

theorem eatLifetime : Reads Parser.eatLifetime := take fun _ h => isLeaf_of_isLifetime h

theorem optWord (name : String) : Reads (Parser.optWord name) := optional (.isWord name) (eatWord name)

theorem eatOp {w : String} (known : (w.toList.length == 1 || typeOps.contains w) = true) : Reads (Parser.eatOp w) := by
  intro s u h a s' run
  obtain ⟨stands, same⟩ := Option.ite_none_right_eq_some.mp run
  cases same
  exact ⟨u.drop w.length, if_pos ((Sees.isOp known h).symm.trans stands), alike_drop h _⟩

theorem optOp {w : String} (known : (w.toList.length == 1 || typeOps.contains w) = true) : Reads (Parser.optOp w) :=
  optional (.isOp known) (eatOp known)

theorem eatLit : Reads Parser.eatLit := by
  intro s u h a s' run
  unfold Parser.eatLit at run
  split at run
  · rename_i j t s
    obtain ⟨number, run⟩ := Option.ite_none_right_eq_some.mp run
    cases run
    obtain ⟨minus, v, rfl⟩ := alike_cons_left h
    obtain ⟨sign, -, -, h⟩ := alike_cons.mp h
    obtain ⟨digits, v, rfl⟩ := alike_cons_left h
    obtain ⟨same, -, -, rest⟩ := alike_cons.mp h
    obtain ⟨b, rfl, sign⟩ := leaf_of_alikeTree sign
    obtain ⟨k, rfl⟩ := punct_of_alikeToken sign
    obtain ⟨x, rfl, same⟩ := leaf_of_alikeTree same
    obtain rfl : .literal t = x := beq_iff_eq.mp same
    exact ⟨v, if_pos number, rest⟩
  · obtain ⟨literal, run⟩ := Option.ite_none_right_eq_some.mp run
    cases run
    obtain ⟨u, v, rfl⟩ := alike_cons_left h
    obtain ⟨same, -, -, rest⟩ := alike_cons.mp h
    have plain : Sees.isPlainLit [a] = true := by
      rwa [Sees.isLit_eq, show Parser.ahead 1 Sees.isNumberLit [a] = false from rfl, Bool.and_false, Bool.or_false] at literal
    rcases a with (n | _ | t | _) | _ | _
    case leaf.ident =>
      obtain ⟨x, rfl, same⟩ := leaf_of_alikeTree same
      obtain rfl : .ident n = x := beq_iff_eq.mp same
      exact ⟨v, if_pos plain, rest⟩
    case leaf.literal =>
      obtain ⟨x, rfl, same⟩ := leaf_of_alikeTree same
      obtain rfl : .literal t = x := beq_iff_eq.mp same
      exact ⟨v, rfl, rest⟩
    all_goals cases plain
  · cases run

theorem within {d : Delim} {p : Parser Trees} (read : d ≠ .brace → Reads p) : Reads (Parser.within d p) := by
  intro s u h a s' run
  unfold Parser.within at run
  split at run
  · rename_i e body s
    obtain ⟨u, v, rfl⟩ := alike_cons_left h
    obtain ⟨same, -, -, rest⟩ := alike_cons.mp h
    obtain ⟨kind, run⟩ := Option.ite_none_right_eq_some.mp run
    obtain ⟨ts, ran, run⟩ := Option.map_eq_some_iff.mp run
    cases run
    obtain rfl : d = e := beq_iff_eq.mp kind
    obtain ⟨body', rfl, inside⟩ := group_of_alikeTree same
    have ran' : p.all body' = some ts := by
      by_cases brace : d = .brace
      · rw [brace, if_pos (beq_self_eq_true _)] at inside
        rw [← beq_iff_eq.mp inside, ran]
      · rw [if_neg (by rwa [beq_iff_eq])] at inside
        exact (read brace).all inside ran
    refine ⟨v, ?_, rest⟩
    change (if (d == d) = true then _ else none) = _
    rw [if_pos (beq_self_eq_true d), ran']
    rfl
  · cases run

theorem commaSeparated {member : Parser Tree} (read : Reads member) : Reads (Parser.commaSeparated member) :=
  many (.bind read fun _ => .bind .atEnd fun _ => .ite (.pure _) (.bind (.eatOp (by decide)) fun _ => .pure _))

theorem commaSeparatedWhile {more : Trees → Bool} {member : Parser Tree} (sees : Sees more) (read : Reads member) :
    Reads (Parser.commaSeparatedWhile more member) :=
  manyWhile sees <| .bind read fun _ => .bind (.peek sees) fun _ =>
    .ite (.bind (.eatOp (by decide)) fun _ => .pure _) (.pure _)

theorem joined {sep : String} {more : Trees → Bool} {member : Parser Tree} (known : (sep.toList.length == 1) = true)
    (sees : Sees more) (read : Reads member) : Reads (Parser.joined sep more member) := by
  have known : (sep.toList.length == 1 || typeOps.contains sep) = true := Bool.or_eq_true_iff.mpr (.inl known)
  refine .bind read fun _ => .bind (manyWhile (.isOp known) ?_) fun _ => .pure _
  exact .bind (.eatOp known) fun _ => .bind (.peek sees) fun _ => .ite (.bind read fun _ => .pure _) (.pure _)

end Reads

/-- What the rules for types leave to rules for what is nested. -/
structure ReadsNested (g : Rules) : Prop where
  type : ∀ sums, Reads (g.type sums)
  bound : Reads g.bound
  block : Reads g.block

theorem sees_isColon : Sees fun s => isOp ":" s && !isOp "::" s := (Sees.isOp (by decide)).and (.not (.isOp (by decide)))

theorem sees_isBang : Sees fun s => isOp "!" s && !isOp "!=" s := (Sees.isOp (by decide)).and (.not (.isOp (by decide)))

theorem sees_notClosed : Sees fun s => !isOp ">" s := .not (.isOp (by decide))

theorem sees_canBeginBound : Sees canBeginBound :=
  ((((Sees.isAnyWord.or (.isOp (by decide))).or (.isOp (by decide))).or .isLifetime).or (.isGroup .paren)).or (.isOp (by decide))

theorem sees_isOuterWord : Sees isOuterWord := (((Sees.isWord _).or (.isWord _)).or (.isWord _)).or (.isWord _)

section Paths
variable {g : Rules} (nested : ReadsNested g)
include nested

theorem reads_constArgument : Reads (constArgument g) :=
  .bind (.peek .isLit) fun _ => .ite (.bind .eatLit fun _ => .pure _) (.bind nested.block fun _ => .pure _)

theorem reads_bounds : Reads (bounds g) :=
  .bind (.joined (by decide) sees_canBeginBound nested.bound) fun _ => .pure _

theorem reads_genericArgument : Reads (genericArgument g) := by
  have constant : Sees (either isLit (isGroup .brace)) := Sees.isLit.either (.isGroup .brace)
  refine .bind (.peek (Sees.isLifetime.and (.not (.ahead 1 (.isOp (by decide)))))) fun _ => .ite .eatLifetime ?_
  refine .bind (.peek constant) fun _ => .ite (reads_constArgument nested) (.bind (nested.type true) fun t => ?_)
  split
  · exact .pure _
  · refine .bind (.peek (.isOp (by decide))) fun _ => .ite (.bind (.eatOp (by decide)) fun _ => ?_) ?_
    · refine .bind (.peek constant) fun _ => .ite ?_ ?_
      · exact .bind (reads_constArgument nested) fun _ => .pure _
      · exact .bind (nested.type true) fun _ => .pure _
    · refine .bind (.peek sees_isColon) fun _ => .ite ?_ (.pure _)
      exact .bind (.eatOp (by decide)) fun _ => .bind (reads_bounds nested) fun _ => .pure _

theorem reads_angleArguments : Reads (angleArguments g) :=
  .bind (.optOp (by decide)) fun _ => .bind (.eatOp (by decide)) fun _ =>
    .bind (.commaSeparatedWhile sees_notClosed (reads_genericArgument nested)) fun _ =>
      .bind (.eatOp (by decide)) fun _ => .pure _

theorem reads_segment (inExpr : Bool) : Reads (segment g inExpr) := by
  have turbofish : Sees fun s => isOp "::" s && ahead 2 (isOp "<") s :=
    (Sees.isOp (by decide)).and (.ahead 2 (.isOp (by decide)))
  have angle : Sees fun s => !inExpr && isOp "<" s && !isOp "<=" s :=
    ((Sees.const _).and (.isOp (by decide))).and (.not (.isOp (by decide)))
  have arguments : Reads (Parser.optional
      (fun s => !inExpr && isOp "<" s && !isOp "<=" s || isOp "::" s && ahead 2 (isOp "<") s) (angleArguments g)) :=
    .optional (angle.or turbofish) (reads_angleArguments nested)
  refine .bind (.peek sees_isOuterWord) fun _ => .ite (.bind .eatAnyWord fun _ => .pure _) ?_
  refine .bind (.peek (.isWord _)) fun _ => .ite ?_ ?_
  · exact .bind .eatAnyWord fun _ => .bind arguments fun _ => .pure _
  · exact .bind .eatIdent fun _ => .bind arguments fun _ => .pure _

theorem reads_moreSegments (inExpr : Bool) : Reads (moreSegments g inExpr) := by
  have continues : Sees continues := (Sees.isOp (by decide)).and (.not (.ahead 2 (.isGroup .paren)))
  exact .manyWhile continues (.bind (.eatOp (by decide)) fun _ => .bind (reads_segment nested inExpr) fun _ => .pure _)

theorem reads_path (inExpr : Bool) : Reads (path g inExpr) := by
  have root : Reads rootMark := .bind (.peek (.isOp (by decide))) fun _ => .ite (.bind (.eatOp (by decide)) fun _ => .pure _) (.pure _)
  exact .bind root fun _ => .bind (reads_segment nested inExpr) fun _ => .bind (reads_moreSegments nested inExpr) fun _ => .pure _

theorem reads_qualifiedPath (inExpr : Bool) : Reads (qualifiedPath g inExpr) := by
  refine .bind (.peek (.isOp (by decide))) fun _ => .ite ?_ (reads_path nested inExpr)
  have rest (opening ty : Tree) (via : Trees) : Reads (do
      let closing ← eatOp ">"
      let colons ← eatOp "::"
      let first ← segment g inExpr
      let rest ← manyWhile (isOp "::") do
        let colons ← eatOp "::"
        pure [colons, ← segment g inExpr]
      pure (Tree.node .qualified ([opening, ty] ++ via ++ [closing, colons, first] ++ rest))) := by
    refine .bind (.eatOp (by decide)) fun _ => .bind (.eatOp (by decide)) fun _ => ?_
    refine .bind (reads_segment nested inExpr) fun _ => .bind (.manyWhile (.isOp (by decide)) ?_) fun _ => .pure _
    exact .bind (.eatOp (by decide)) fun _ => .bind (reads_segment nested inExpr) fun _ => .pure _
  refine .bind (.eatOp (by decide)) fun opening => .bind (nested.type true) fun ty => ?_
  refine .bind (.peek (.isWord _)) fun _ => .ite ?_ (.bind (.pure _) fun via => rest opening ty via)
  exact .bind (.eatWord _) fun _ => .bind (reads_path nested false) fun _ => .bind (.pure _) fun via => rest opening ty via

end Paths

section Signs
variable {α : Type} {s s' u : Trees}

theorem run_eatSign {w : String} {o : Tree} (one : (w.toList.length == 1) = true) (h : alike s u = true)
    (run : eatOp w s = some (o, s')) :
    ∃ t v, t.isOp w = true ∧ eatOp w u = some (o, v) ∧ keepsNext t s' v = true ∧ alike s' v = true := by
  obtain ⟨v, run', rest⟩ := Reads.eatOp (Bool.or_eq_true_iff.mpr (.inl one)) h run
  obtain ⟨stands, left⟩ := Option.ite_none_right_eq_some.mp run
  obtain ⟨-, left'⟩ := Option.ite_none_right_eq_some.mp run'
  have length : w.length = 1 := by rw [← String.length_toList, beq_iff_eq.mp one]
  cases left
  cases left'
  rw [length] at rest ⊢
  cases s with
  | nil =>
    obtain ⟨c, single⟩ := List.length_eq_one_iff.mp (beq_iff_eq.mp one)
    rw [isOp, single] at stands
    cases stands
  | cons t s =>
    obtain ⟨u, v, rfl⟩ := alike_cons_left h
    obtain ⟨j, rfl⟩ := Parser.eq_of_isOp one stands
    refine ⟨.leaf (.punct w j), v, beq_self_eq_true w, ?_, (alike_cons.mp h).2.2.1, rest⟩
    rw [run', length]
    rfl

/-- The parser takes the first tree and looks at nothing else. -/
def TakesFirst (p : Parser α) : Prop := ∃ f : Tree → Option α, p [] = none ∧ ∀ t s, p (t :: s) = (f t).map (·, s)

theorem TakesFirst.within (d : Delim) (p : Parser Trees) : TakesFirst (Parser.within d p) := by
  refine ⟨fun t => (Parser.within d p [t]).map Prod.fst, rfl, fun t s => ?_⟩
  cases t with
  | group e body =>
    change (if (d == e) = true then (p.all body).map fun ts => (Tree.group d ts, s) else none) =
      (Option.map Prod.fst (if (d == e) = true then (p.all body).map fun ts => (Tree.group d ts, []) else none)).map (·, s)
    split
    · rw [Option.map_map, Option.map_map]
      rfl
    · rfl
  | leaf _ | node _ _ => rfl

theorem TakesFirst.macroGroup : TakesFirst macroGroup := by
  refine ⟨fun t => if isAnyGroup [t] then some t else none, rfl, fun t s => ?_⟩
  change (if isAnyGroup [t] = true then some (t, s) else none) = _
  dsimp only
  split <;> rfl

theorem TakesFirst.run {p : Parser α} (first : TakesFirst p) (same : s.head? = u.head?) (h : alike s u = true) {a : α}
    (run : p s = some (a, s')) : ∃ v, p u = some (a, v) ∧ alike s' v = true := by
  obtain ⟨f, none, some⟩ := first
  cases s with
  | nil =>
    rw [none] at run
    cases run
  | cons t s =>
    obtain ⟨u, v, rfl⟩ := alike_cons_left h
    obtain rfl := Option.some.inj same
    rw [some] at run
    obtain ⟨b, made, left⟩ := Option.map_eq_some_iff.mp run
    cases left
    exact ⟨v, by rw [some, made, Option.map_some], (alike_cons.mp h).2.2.2⟩

end Signs

theorem head?_of_keepsNext {t : Tree} {s u : Trees} {w : String} (sign : w = "#" ∨ w = "!") (isSign : t.isOp w = true)
    (kept : keepsNext t s u = true) : s.head? = u.head? := by
  obtain ⟨j, rfl⟩ := Tree.eq_of_isOp isSign
  rcases sign with rfl | rfl <;> exact beq_iff_eq.mp kept

theorem reads_signed {α β : Type} {w : String} {p : Parser β} {f : Tree → β → Parser α} (sign : w = "#" ∨ w = "!")
    (first : TakesFirst p) (rest : ∀ o b, Reads (f o b)) : Reads (eatOp w >>= fun o => p >>= f o) := by
  intro s u h a s' run
  have one : (w.toList.length == 1) = true := by rcases sign with rfl | rfl <;> rfl
  obtain ⟨⟨o, s₁⟩, ran, run⟩ := Option.bind_eq_some_iff.mp run
  obtain ⟨t, u₁, isSign, ran', kept, h⟩ := run_eatSign one h ran
  obtain ⟨⟨b, s₂⟩, next, run⟩ := Option.bind_eq_some_iff.mp run
  obtain ⟨u₂, next', h⟩ := first.run (head?_of_keepsNext sign isSign kept) h next
  obtain ⟨u', run', h⟩ := rest o b h run
  exact ⟨u', Option.bind_eq_some_iff.mpr ⟨(o, u₁), ran', Option.bind_eq_some_iff.mpr ⟨(b, u₂), next', run'⟩⟩, h⟩

theorem reads_macroRest (name : Tree) : Reads (macroRest name) :=
  reads_signed (.inr rfl) .macroGroup fun _ _ => .pure _

theorem reads_outerAttributes (g : Rules) : Reads (outerAttributes g) :=
  .bind (.manyWhile (.isOp (by decide)) (.bind (reads_signed (.inl rfl) (.within _ _) fun _ _ => .pure _) fun _ => .pure _))
    fun _ => .pure _

theorem reads_ended {α β : Type} (p : Parser β) (f : Tree → β → α) :
    Reads (eatOp ";" >>= fun o => p >>= fun b => pure (f o b)) := by
  intro s u h a s' run
  obtain ⟨⟨o, s₁⟩, ran, run⟩ := Option.bind_eq_some_iff.mp run
  obtain ⟨t, u₁, isSign, ran', kept, h⟩ := run_eatSign (by decide) h ran
  obtain rfl : s₁ = u₁ := by
    rw [keepsNext, if_pos isSign] at kept
    exact beq_iff_eq.mp kept
  exact ⟨s', Option.bind_eq_some_iff.mpr ⟨(o, s₁), ran', run⟩, alike_refl s'⟩

section Types
variable {g : Rules} (nested : ReadsNested g)
include nested

theorem reads_output (sums : Bool) : Reads (output g sums) :=
  .optional (.isOp (by decide)) (.bind (.eatOp (by decide)) fun _ => .bind (nested.type sums) fun _ => .pure _)

theorem reads_parenArguments : Reads (parenArguments g) :=
  .bind (.optOp (by decide)) fun _ => .bind (.within fun _ => .commaSeparated (nested.type true)) fun _ =>
    .bind (reads_output nested false) fun _ => .pure _

theorem reads_withParens (path : Tree) : Reads (withParens g path) := by
  have takes : Sees (takesParens path) :=
    (Sees.const _).and ((Sees.isGroup .paren).or ((Sees.isOp (by decide)).and (.ahead 2 (.isGroup .paren))))
  refine .bind (.peek takes) fun _ => .ite (.bind (reads_parenArguments nested) fun _ => ?_) (.pure _)
  split
  · exact .bind (reads_moreSegments nested false) fun _ => .pure _
  · exact .pure _

omit nested in
theorem reads_lifetimeBounds : Reads lifetimeBounds :=
  .bind (.peek .isLifetime) fun _ => .ite (.bind (.joined (by decide) .isLifetime .eatLifetime) fun _ => .pure _) (.pure _)

omit nested in
theorem reads_lifetimeParam : Reads (lifetimeParam g) := by
  refine .bind (reads_outerAttributes g) fun _ => .bind .eatLifetime fun _ => .bind (.peek sees_isColon) fun _ => ?_
  exact .ite (.bind (.eatOp (by decide)) fun _ => .bind reads_lifetimeBounds fun _ => .pure _) (.pure _)

omit nested in
theorem reads_optLifetimes : Reads (optLifetimes g) := by
  refine .optional (.isWord _) (.bind (.eatWord _) fun _ => .bind (.eatOp (by decide)) fun _ => ?_)
  exact .bind (.commaSeparatedWhile sees_notClosed reads_lifetimeParam) fun _ =>
    .bind (.eatOp (by decide)) fun _ => .pure _

theorem reads_traitBound : Reads (traitBound g) :=
  .bind (.optOp (by decide)) fun _ => .bind reads_optLifetimes fun _ => .bind (reads_path nested false) fun _ =>
    .bind (reads_withParens nested _) fun _ => .pure _

theorem reads_bound : Reads (bound g) := by
  have captured : Reads (Parser.take fun t => isLifetime [t] || isAnyWord [t]) := .take fun t h =>
    (Bool.or_eq_true_iff.mp h).elim Reads.isLeaf_of_isLifetime Reads.isLeaf_of_isAnyWord
  refine .bind (.peek .isLifetime) fun _ => .ite .eatLifetime (.bind (.peek (.isGroup _)) fun _ => .ite ?_ ?_)
  · exact .bind (.within fun _ => .bind (reads_traitBound nested) fun _ => .pure _) fun _ => .pure _
  · refine .bind (.peek ((Sees.isWord _).and (.ahead 1 (.isOp (by decide))))) fun _ => .ite ?_ (reads_traitBound nested)
    exact .bind .eatAnyWord fun _ => .bind (.eatOp (by decide)) fun _ =>
      .bind (.commaSeparatedWhile sees_notClosed captured) fun _ => .bind (.eatOp (by decide)) fun _ => .pure _

omit nested in
theorem reads_optAbi : Reads optAbi := by
  refine .optional (.isWord _) (.bind (.eatWord _) fun _ => .bind (.peek ?_) fun _ => .ite ?_ (.pure _))
  · exact (Sees.isLit.and (.not (.isWord _))).and (.not (.isWord _))
  · exact .bind .eatLit fun _ => .pure _

theorem reads_bareFnArgument : Reads (bareFnArgument g) := by
  have named : Sees fun s => (isIdent s || isWord "_" s || isWord "self" s) && ahead 1 (isOp ":") s &&
      !ahead 1 (isOp "::") s :=
    ((((Sees.isIdent.or (.isWord _)).or (.isWord _)).and (.ahead 1 (.isOp (by decide)))).and
      (.not (.ahead 1 (.isOp (by decide)))))
  refine .bind (reads_outerAttributes g) fun _ => .bind (.peek (.isOp (by decide))) fun _ => .ite ?_ ?_
  · exact .bind (.eatOp (by decide)) fun _ => .pure _
  · refine .bind (.peek named) fun _ => .ite ?_ (.bind (nested.type true) fun _ => .pure _)
    exact .bind .eatAnyWord fun _ => .bind (.eatOp (by decide)) fun _ => .bind (nested.type true) fun _ => .pure _

theorem reads_bareFn (lifetimes : Tree) : Reads (bareFn g lifetimes) :=
  .bind (.optWord _) fun _ => .bind reads_optAbi fun _ => .bind (.eatWord _) fun _ =>
    .bind (.within fun _ => .commaSeparated (reads_bareFnArgument nested)) fun _ =>
      .bind (reads_output nested false) fun _ => .pure _

theorem reads_traitSum (lifetimes : Tree) (first : Trees) (sums : Bool) : Reads (traitSum g lifetimes first sums) := by
  refine .ite (.bind (.manyWhile (.isOp (by decide)) ?_) fun _ => .pure _) (.bind (.pure _) fun _ => .pure _)
  exact .bind (.eatOp (by decide)) fun _ => .bind (.peek sees_canBeginBound) fun _ =>
    .ite (.bind nested.bound fun _ => .pure _) (.pure _)

theorem reads_pathType (lifetimes : Tree) (sums : Bool) : Reads (pathType g lifetimes sums) := by
  refine .bind (reads_qualifiedPath nested false) fun p => ?_
  split
  · exact .pure _
  · refine .bind (.peek (sees_isBang.and (.const _))) fun _ => .ite (.bind (reads_macroRest _) fun _ => .pure _) ?_
    exact .bind (.peek (.isOp (by decide))) fun _ => .ite (reads_traitSum nested _ _ _) (.pure _)

theorem reads_traitBounds (sums : Bool) : Reads (traitBounds g sums) :=
  .ite (reads_bounds nested) (.bind nested.bound fun _ => .pure _)

theorem reads_parenType (sums : Bool) : Reads (parenType g sums) := by
  have group : Reads (Parser.within .paren do
      if ← atEnd then pure []
      else if ← Parser.peek (either isLifetime (isOp "?")) then pure [← traitSum g absent [← g.bound] true]
      else do
        let first ← g.type true
        if ← atEnd then pure [first]
        else do
          let comma ← Parser.eatOp ","
          pure (first :: comma :: (← types g))) := by
    refine .within fun _ => .bind .atEnd fun _ => .ite (.pure _) (.bind (.peek (Sees.isLifetime.either (.isOp (by decide)))) ?_)
    refine fun _ => .ite ?_ (.bind (nested.type true) fun _ => .bind .atEnd fun _ => .ite (.pure _) ?_)
    · exact .bind nested.bound fun _ => .bind (reads_traitSum nested _ _ _) fun _ => .pure _
    · exact .bind (.eatOp (by decide)) fun _ => .bind (.commaSeparated (nested.type true)) fun _ => .pure _
  refine .bind group fun t => ?_
  split
  · refine .bind (.peek (.isOp (by decide))) fun _ => .ite ?_ (.pure _)
    split
    · exact reads_traitSum nested _ _ _
    · exact reads_traitSum nested _ _ _
    · exact .pure _
  · exact .pure _

theorem reads_bracketType : Reads (bracketType g) := by
  refine .bind (.within fun _ => .bind (nested.type true) fun elem => .bind .atEnd fun _ => .ite (.pure _) ?_) fun t => ?_
  · exact reads_ended (g.expr true) fun semi length => [elem, semi, length]
  · split <;> exact .pure _

omit nested in
theorem sees_beginsPath : Sees beginsPath :=
  (((((Sees.isIdent.or (.isWord _)).or (.isWord _)).or (.isWord _)).or (.isWord _)).or (.isOp (by decide))).or
    (.isOp (by decide))

theorem reads_type (sums : Bool) : Reads (type g sums) := by
  refine .bind reads_optLifetimes fun lifetimes => .bind (.peek (((Sees.isWord _).or (.isWord _)).or (.isWord _))) fun _ => ?_
  refine .ite (reads_bareFn nested _) (.bind (.peek (.isWord _)) fun _ => .ite ?_ ?_)
  · exact .bind .eatAnyWord fun _ => .bind (reads_traitBounds nested _) fun _ => .pure _
  refine .bind (.peek sees_beginsPath) fun _ => .ite (reads_pathType nested _ _) (.ite .failure ?_)
  refine .bind (.peek (.isGroup _)) fun _ => .ite (reads_parenType nested _) ?_
  refine .bind (.peek (.isGroup _)) fun _ => .ite (reads_bracketType nested) ?_
  refine .bind (.peek (.isOp (by decide))) fun _ => .ite ?pointer ?_
  case pointer =>
    have target (star word : Tree) : Reads (do pure (Tree.node (.type .ptr) [star, word, ← g.type false])) :=
      .bind (nested.type false) fun _ => .pure _
    refine .bind (.eatOp (by decide)) fun star => .bind (.peek (.isWord _)) fun _ => .ite ?_ ?_
    · exact .bind .eatAnyWord fun word => target star word
    · exact .bind (.eatWord _) fun word => target star word
  refine .bind (.peek (.isOp (by decide))) fun _ => .ite ?reference ?_
  case reference =>
    refine .bind (.eatOp (by decide)) fun _ => .bind (.optional .isLifetime .eatLifetime) fun _ => ?_
    exact .bind (.optWord _) fun _ => .bind (nested.type false) fun _ => .pure _
  refine .bind (.peek sees_isBang) fun _ => .ite (.bind (.eatOp (by decide)) fun _ => .pure _) ?_
  refine .bind (.peek (.isWord _)) fun _ => .ite ?_ ?_
  · exact .bind .eatAnyWord fun _ => .bind (reads_traitBounds nested _) fun _ => .pure _
  refine .bind (.peek (.isWord _)) fun _ => .ite (.bind .eatAnyWord fun _ => .pure _) ?_
  exact .bind (.peek .isLifetime) fun _ => .ite (.bind (reads_traitBounds nested _) fun _ => .pure _) .failure

end Types

theorem readsNested_rules (levels : Nat) : ReadsNested (rules levels) := by
  induction levels with
  | zero => exact ⟨fun _ => .failure, .failure, .failure⟩
  | succ levels ih => exact ⟨reads_type ih, reads_bound ih, .bind (.within fun brace => (brace rfl).elim) fun _ => .pure _⟩

theorem parseAll_type_of_alike {s u : Trees} (h : alike s u = true) {t : Tree}
    (read : parseAll (Grammar.type · true) s = some t) : parseAll (Grammar.type · true) u = some t := by
  have levels : levelsFor u = levelsFor s := by rw [levelsFor, levelsFor, size_of_alike s u h]
  rw [parseAll, levels]
  exact (reads_type (readsNested_rules (levelsFor s)) true).all h read

end Grammar
end Retype.Code
