/-! Source code as a lossless tree.  A leaf is a token, a group is what stands between two delimiters, and a
node gives a run of trees its grammatical role.  Every token of the code is a leaf, in source order, so the
text of a tree is read off its leaves and nodes add nothing to it.

Token text joins tokens by one space, except that nothing stands after a joint punctuation character. -/

namespace Retype.Code

inductive Delim
  | paren
  | bracket
  | brace
  deriving DecidableEq, Repr

/-- An operator of the grammar is one punctuation token, alone; in code that is not parsed, such as the body
of an unknown macro, each character is a token of its own and joint when punctuation follows it directly. -/
inductive Token
  | ident (name : String)
  | lifetime (name : String)
  | literal (text : String)
  | punct (text : String) (joint : Bool)
  deriving DecidableEq, Repr

inductive ExprKind
  | array | assign | asyncBlock | await | binary | block | breakOut | call | cast | closure | constBlock
  | continueLoop | field | forLoop | ifElse | index | infer | letCond | lit | loop | macroCall | matchOn
  | methodCall | paren | path | range | rawAddr | reference | repeated | returnEarly | structLit | tried
  | tryBlock | tuple | unary | unsafeBlock | whileLoop | yielded | verbatim
  deriving DecidableEq, Repr

inductive PatKind
  | constBlock | ident | lit | macroCall | orElse | paren | path | range | reference | rest | slice
  | structPat | tuple | tupleStruct | typed | wild | boxed
  deriving DecidableEq, Repr

inductive TypeKind
  | array | bareFn | implTrait | infer | macroCall | never | paren | path | ptr | reference | slice
  | traitObject | tuple
  deriving DecidableEq, Repr

inductive StmtKind
  | bind | expr | macroCall
  deriving DecidableEq, Repr

inductive ItemKind
  | const | enum | externCrate | fn | foreignMod | impl | macroCall | method | mod | static | struct
  | trait | traitAlias | typeAlias | union | use | verbatim
  deriving DecidableEq, Repr

inductive UseKind
  | path | name | rename | glob | group
  deriving DecidableEq, Repr

/-- The grammatical role of a node.  `absent` stands in the place of an optional part that is not there. -/
inductive Kind
  | absent
  | expr (kind : ExprKind)
  | pat (kind : PatKind)
  | type (kind : TypeKind)
  | stmt (kind : StmtKind)
  | item (kind : ItemKind)
  | useTree (kind : UseKind)
  | block
  | attrs | attr | metaPath | metaList | metaValue
  | path | qualified | segment | angleArgs | parenArgs | assocType | assocConst | constraint | constArg
  | macroBody
  | label | arm | guard | elseBranch | init | letElse | fieldValue | fieldPat | inputs
  | generics | lifetimeParam | typeParam | constParam | whereClause | typeBound | lifetimeBound | bounds
  | traitBound | output | boundLifetimes | variadic | receiver | param | signature | abi
  | visibility | field | variant | discriminant | implTarget | rename
  deriving DecidableEq, Repr

inductive Tree
  | leaf (token : Token)
  | group (delim : Delim) (body : List Tree)
  | node (kind : Kind) (parts : List Tree)
  deriving Repr

instance : Inhabited Tree := ⟨.node .absent []⟩

abbrev Trees := List Tree

def Tree.absent : Tree := .node .absent []

/-- A printed token and whether the next one follows without a space. -/
structure Word where
  text : String
  joint : Bool

/-- Joins words by single spaces, with none after a joint word. -/
def spaced : List Word → String
  | [] => ""
  | [w] => w.text
  | w :: v :: ws => w.text ++ (if w.joint then "" else " ") ++ spaced (v :: ws)

def Token.word : Token → Word
  | .ident name => ⟨name, false⟩
  | .lifetime name => ⟨name, false⟩
  | .literal text => ⟨text, false⟩
  | .punct text joint => ⟨text, joint⟩

/-- A group is one word.  Only braces are padded, and an empty pair of braces holds one space. -/
def Delim.enclose (d : Delim) (body : List Word) : Word :=
  match d with
  | .paren => ⟨"(" ++ spaced body ++ ")", false⟩
  | .bracket => ⟨"[" ++ spaced body ++ "]", false⟩
  | .brace => ⟨"\x7b " ++ spaced body ++ (if body.isEmpty then "\x7d" else " \x7d"), false⟩

mutual
def Tree.words : Tree → List Word
  | .leaf token => [token.word]
  | .group delim body => [delim.enclose (Trees.words body)]
  | .node _ parts => Trees.words parts

def Trees.words : List Tree → List Word
  | [] => []
  | t :: ts => t.words ++ Trees.words ts
end

def Trees.text (ts : Trees) : String := spaced (Trees.words ts)

def Tree.text (t : Tree) : String := spaced t.words

/-- The characters of an operator as single tokens, all but the last joint. -/
def splitPunct (joint : Bool) : List Char → List Token
  | [] => []
  | [c] => [.punct (String.singleton c) joint]
  | c :: d :: r => .punct (String.singleton c) true :: splitPunct joint (d :: r)

def Token.split : Token → List Token
  | .punct text joint => splitPunct joint text.toList
  | t => [t]

mutual
/-- The tree as unparsed code: leaves and groups only, one punctuation character a leaf. -/
def Tree.raw : Tree → List Tree
  | .leaf token => token.split.map .leaf
  | .group delim body => [.group delim (Trees.raw body)]
  | .node _ parts => Trees.raw parts

def Trees.raw : List Tree → List Tree
  | [] => []
  | t :: ts => t.raw ++ Trees.raw ts
end

@[simp] theorem Trees.words_append (a b : List Tree) : Trees.words (a ++ b) = Trees.words a ++ Trees.words b := by
  induction a with
  | nil => simp [Trees.words]
  | cons t ts ih => simp [Trees.words, ih]

@[simp] theorem Trees.raw_append (a b : List Tree) : Trees.raw (a ++ b) = Trees.raw a ++ Trees.raw b := by
  induction a with
  | nil => simp [Trees.raw]
  | cons t ts ih => simp [Trees.raw, ih]

mutual
/-- The number of tokens, groups and nodes. -/
def Tree.size : Tree → Nat
  | .leaf _ => 1
  | .group _ body => Trees.size body + 1
  | .node _ parts => Trees.size parts + 1

def Trees.size : List Tree → Nat
  | [] => 0
  | t :: ts => t.size + Trees.size ts
end

theorem Tree.size_pos (t : Tree) : 0 < t.size := by
  cases t <;> simp [Tree.size]

/-- The leaf of an identifier or keyword. -/
def word (name : String) : Tree := .leaf (.ident name)

def op (text : String) : Tree := .leaf (.punct text false)

def lit (text : String) : Tree := .leaf (.literal text)

def Tree.isOp (text : String) : Tree → Bool
  | .leaf (.punct t _) => t == text
  | _ => false

theorem Tree.eq_of_isOp {text : String} {t : Tree} (h : t.isOp text = true) : ∃ joint, t = .leaf (.punct text joint) := by
  rcases t with (_ | _ | _ | ⟨a, joint⟩) | _ | _
  case leaf.punct =>
    obtain rfl : a = text := beq_iff_eq.mp h
    exact ⟨joint, rfl⟩
  all_goals cases h

def Tree.isWord (name : String) : Tree → Bool
  | .leaf (.ident n) => n == name
  | _ => false

def Tree.isAbsent : Tree → Bool
  | .node .absent _ => true
  | _ => false

def Tree.isPresent (t : Tree) : Bool := !t.isAbsent

def Tree.parts : Tree → Trees
  | .node _ ts => ts
  | _ => []

def Tree.body : Tree → Trees
  | .group _ ts => ts
  | _ => []

def Tree.isNode : Tree → Bool
  | .node _ _ => true
  | _ => false

def Tree.isSegment : Tree → Bool
  | .node .segment _ => true
  | _ => false

/-- The segments of a path, its qualified type aside. -/
def Tree.segments : Tree → Trees
  | .node .path parts => parts.filter (·.isSegment)
  | .node .qualified parts => parts.filter (·.isSegment)
  | _ => []

def Trees.members (ts : Trees) : Trees := ts.filter fun t => !t.isOp ","

def commaList : Trees → Trees
  | [] => []
  | [t] => [t]
  | t :: u :: ts => t :: op "," :: commaList (u :: ts)

theorem filterMap_commaList {β : Type} {g : Tree → Option β} (noComma : g (op ",") = none) (ts : Trees) :
    (commaList ts).filterMap g = ts.filterMap g := by
  fun_induction commaList ts with
  | case1 => rfl
  | case2 t => rfl
  | case3 t u ts ih =>
    rw [List.filterMap_cons, List.filterMap_cons_none noComma, ih]
    rfl

theorem members_commaList {ts : Trees} (noCommas : ∀ t ∈ ts, t.isOp "," = false) : Trees.members (commaList ts) = ts := by
  fun_induction commaList ts with
  | case1 => rfl
  | case2 t =>
    rw [Trees.members, List.filter_cons, noCommas t List.mem_cons_self]
    rfl
  | case3 t u ts ih =>
    have later := ih fun v mem => noCommas v (List.mem_cons_of_mem t mem)
    have comma : (op ",").isOp "," = true := rfl
    rw [Trees.members] at later ⊢
    rw [List.filter_cons, noCommas t List.mem_cons_self, List.filter_cons, comma, later]
    rfl

end Retype.Code
