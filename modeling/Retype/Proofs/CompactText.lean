import Retype.Proofs.SolidTokens
import Retype.Proofs.TypeText

/-! The compact text of a type, read back.  It holds the tokens of the type in their order.  A space that is dropped
stood beside a sign, so each token is read as itself, and what changes is which signs touch. -/

namespace Retype.Code

/-- The tokens that stand for a token in a text: an operator is its signs, and a negative number has a sign. -/
def Token.written : Token → List Token
  | .punct text joint => if text.toList = [] then [.punct text joint] else splitPunct joint text.toList
  | .literal text =>
    match text.toList with
    | '-' :: digits => [.punct "-" true, .literal (String.ofList digits)]
    | _ => [.literal text]
  | t => [t]

mutual
/-- The tokens and groups of a tree. -/
def Tree.written : Tree → Trees
  | .leaf token => token.written.map .leaf
  | .group delim body => [.group delim (Trees.written body)]
  | .node _ parts => Trees.written parts

def Trees.written : List Tree → Trees
  | [] => []
  | t :: ts => t.written ++ Trees.written ts
end

/-- Two lists of words are spaced to one text, whatever follows. -/
structure Spells (u v : List Word) : Prop where
  text : ∀ ws, spaced (u ++ ws) = spaced (v ++ ws)
  empty : u.isEmpty = v.isEmpty

theorem Spells.refl (u : List Word) : Spells u u := ⟨fun _ => rfl, rfl⟩

theorem spaced_append_congr (u : List Word) {v w : List Word} (text : spaced v = spaced w)
    (empty : v.isEmpty = w.isEmpty) : spaced (u ++ v) = spaced (u ++ w) := by
  induction u with
  | nil => exact text
  | cons a u ih =>
    cases u with
    | nil =>
      cases v with
      | nil =>
        cases w with
        | nil => rfl
        | cons y w => cases empty
      | cons x v =>
        cases w with
        | nil => cases empty
        | cons y w => rw [List.singleton_append, List.singleton_append, spaced, spaced, text]
    | cons b u =>
      rw [List.cons_append, List.cons_append, List.cons_append, List.cons_append] at *
      rw [spaced, spaced, ih]

theorem isEmpty_append (u v : List Word) : (u ++ v).isEmpty = (u.isEmpty && v.isEmpty) := by
  cases u <;> rfl

theorem Spells.append {u u' v v' : List Word} (first : Spells u v) (second : Spells u' v') :
    Spells (u ++ u') (v ++ v') := by
  constructor
  · intro ws
    rw [List.append_assoc, List.append_assoc, first.text]
    refine spaced_append_congr v (second.text ws) ?_
    rw [isEmpty_append, isEmpty_append, second.empty]
  · rw [isEmpty_append, isEmpty_append, first.empty, second.empty]

theorem spaced_cons_append (a b : String) (joint : Bool) (ws : List Word) :
    spaced (⟨a ++ b, joint⟩ :: ws) = a ++ spaced (⟨b, joint⟩ :: ws) := by
  cases ws with
  | nil => rfl
  | cons w ws => rw [spaced, spaced, String.append_assoc, String.append_assoc, String.append_assoc]

theorem spaced_joint (a : String) {ws : List Word} (more : ws ≠ []) : spaced (⟨a, true⟩ :: ws) = a ++ spaced ws := by
  obtain ⟨w, ws, rfl⟩ := List.exists_cons_of_ne_nil more
  rw [spaced, if_pos rfl, String.append_empty]

theorem spells_splitPunct (joint : Bool) (c : Char) (r : List Char) :
    Spells ((splitPunct joint (c :: r)).map Token.word) [⟨String.ofList (c :: r), joint⟩] := by
  induction r generalizing c with
  | nil => exact .refl _
  | cons d r ih =>
    have nonempty : (splitPunct joint (d :: r)).map Token.word ≠ [] := by
      intro none
      have empty := (ih d).empty
      rw [none] at empty
      cases empty
    constructor
    · intro ws
      have text : String.ofList (c :: d :: r) = String.singleton c ++ String.ofList (d :: r) := by
        rw [← String.toList_inj, String.toList_append, String.toList_ofList, String.toList_ofList,
          String.toList_singleton]
        rfl
      rw [text, List.singleton_append, spaced_cons_append, splitPunct, List.map_cons, List.cons_append]
      change spaced (⟨String.singleton c, true⟩ :: _) = _
      rw [spaced_joint _ (List.append_ne_nil_of_left_ne_nil nonempty ws), (ih d).text ws]
      rfl
    · rfl

theorem Token.spells (t : Token) : Spells (t.written.map Token.word) [t.word] := by
  fun_cases Token.written t with
  | case1 => exact .refl _
  | case2 text joint nonempty =>
    obtain ⟨c, r, same⟩ := List.exists_cons_of_ne_nil nonempty
    have found := spells_splitPunct joint c r
    rw [← same, String.ofList_toList] at found
    exact found
  | case3 text digits same =>
    constructor
    · intro ws
      have whole : text = "-" ++ String.ofList digits := by
        rw [← String.toList_inj, same, String.toList_append, String.toList_ofList, String.toList_ofList]
        rfl
      have joined : spaced (⟨"-", true⟩ :: ⟨String.ofList digits, false⟩ :: ws) =
          spaced (⟨text, false⟩ :: ws) := by
        rw [spaced_joint _ (List.cons_ne_nil _ _), whole, spaced_cons_append]
      exact joined
    · rfl
  | case4 => exact .refl _
  | case5 => exact .refl _

theorem Trees.words_leaves (ts : List Token) : Trees.words (ts.map .leaf) = ts.map Token.word := by
  induction ts with
  | nil => rfl
  | cons t ts ih => rw [List.map_cons, List.map_cons, Trees.words, ih, Tree.words, List.singleton_append]

mutual
theorem Tree.spells : (t : Tree) → Spells (Trees.words t.written) t.words
  | .leaf token => by
    rw [Tree.written, Trees.words_leaves, Tree.words]
    exact token.spells
  | .group delim body => by
    have inside := Trees.spells body
    have text := inside.text []
    rw [List.append_nil, List.append_nil] at text
    have same : delim.enclose (Trees.words (Trees.written body)) = delim.enclose (Trees.words body) := by
      cases delim with
      | paren => rw [Delim.enclose, Delim.enclose, text]
      | bracket => rw [Delim.enclose, Delim.enclose, text]
      | brace => rw [Delim.enclose, Delim.enclose, text, inside.empty]
    rw [Tree.written, Trees.words, Tree.words, Trees.words, Tree.words, same]
    exact .refl _
  | .node _ parts => by
    rw [Tree.written, Tree.words]
    exact Trees.spells parts

theorem Trees.spells : (ts : List Tree) → Spells (Trees.words (Trees.written ts)) (Trees.words ts)
  | [] => .refl _
  | t :: ts => by
    rw [Trees.written, Trees.words_append, Trees.words]
    exact t.spells.append (Trees.spells ts)
end

theorem Trees.text_written (t : Tree) : Trees.text t.written = t.text := by
  have text := t.spells.text []
  rwa [List.append_nil, List.append_nil] at text

open Naming (isGlue tighten spaceCommas)
open Lexer (punctuation Solid Ends endsToken startsComment lexeme? lexemes nest Lexeme isPunct)

def Token.chars (t : Token) : List Char := t.word.text.toList

/-- A sign of one character, or a token that is read from its text alone and loses nothing of it. -/
def Token.isPlain : Token → Bool
  | .punct text _ => (punctuation.filter (· != '\'')).any fun c => text == String.singleton c
  | t => decide (Solid t t.chars) && tighten none t.chars == t.chars && !t.chars.contains ',' &&
      t.chars.getLast?.all (!isGlue ·)

def Tree.joint : Tree → Bool
  | .leaf t => t.word.joint
  | _ => false

/-- The tree touches the next one, and they begin a comment. -/
def opensComment (t : Tree) (ts : Trees) : Bool :=
  t.joint && t.isOp "/" && ts.head?.any fun u => u.isOp "/" || u.isOp "*"

mutual
def Tree.isPlain : Tree → Bool
  | .leaf t => t.isPlain
  | .group _ body => Trees.arePlain body
  | .node _ _ => false

def Trees.arePlain : List Tree → Bool
  | [] => true
  | t :: ts => t.isPlain && !opensComment t ts && Trees.arePlain ts
end

/-- A token or a bracket. -/
inductive Atom
  | token (t : Token)
  | opening (d : Delim)
  | closing (d : Delim)

def Delim.left : Delim → Char
  | .paren => '('
  | .bracket => '['
  | .brace => '\x7b'

def Delim.right : Delim → Char
  | .paren => ')'
  | .bracket => ']'
  | .brace => '\x7d'

def Atom.chars : Atom → List Char
  | .token t => t.chars
  | .opening d => [d.left]
  | .closing d => [d.right]

/-- An atom and whether a space follows it. -/
abbrev Piece := Atom × Bool

mutual
def Tree.pieces : Tree → Bool → List Piece
  | .leaf t, space => [(.token t, space)]
  | .group d body, space =>
    (.opening d, d == .brace) :: (Trees.pieces body (d == .brace) ++ [(.closing d, space)])
  | .node _ _, _ => []

def Trees.pieces : List Tree → Bool → List Piece
  | [], _ => []
  | t :: ts, space => t.pieces (if ts.isEmpty then space else !t.joint) ++ Trees.pieces ts space
end

def Piece.chars (p : Piece) : List Char := p.1.chars ++ if p.2 then [' '] else []

def spelled (ps : List Piece) : List Char := ps.flatMap Piece.chars

theorem arePlain_cons {t : Tree} {ts : Trees} : Trees.arePlain (t :: ts) = true ↔
    t.isPlain = true ∧ opensComment t ts = false ∧ Trees.arePlain ts = true := by
  rw [Trees.arePlain, Bool.and_eq_true, Bool.and_eq_true, Bool.not_eq_true', and_assoc]

theorem spelled_append (ps qs : List Piece) : spelled (ps ++ qs) = spelled ps ++ spelled qs := List.flatMap_append

theorem spelled_cons (p : Piece) (ps : List Piece) : spelled (p :: ps) = p.chars ++ spelled ps := List.flatMap_cons

theorem Tree.words_of_isPlain {t : Tree} (plain : t.isPlain = true) : ∃ w, t.words = [w] ∧ w.joint = t.joint := by
  cases t with
  | leaf t => exact ⟨_, rfl, rfl⟩
  | group d body => exact ⟨d.enclose (Trees.words body), rfl, by cases d <;> rfl⟩
  | node k parts => cases plain

mutual
theorem Tree.spelled_pieces : (t : Tree) → t.isPlain = true → ∀ space,
    spelled (t.pieces space) = (spaced t.words).toList ++ if space then [' '] else []
  | .leaf t, _, space => by
    rw [Tree.pieces, spelled_cons]
    exact List.append_nil _
  | .group d body, plain, space => by
    have inside := Trees.spelled_pieces body plain (d == .brace)
    rw [Tree.pieces, spelled_cons, spelled_append, inside, spelled_cons]
    change _ ++ (_ ++ (_ ++ [])) = (d.enclose (Trees.words body)).text.toList ++ _
    cases d with
    | paren => simp [Delim.enclose, Piece.chars, Atom.chars, Delim.left, Delim.right]
    | bracket => simp [Delim.enclose, Piece.chars, Atom.chars, Delim.left, Delim.right]
    | brace =>
      cases empty : (Trees.words body).isEmpty <;>
        simp [Delim.enclose, Piece.chars, Atom.chars, Delim.left, Delim.right, empty]
  | .node _ _, plain, _ => by cases plain

theorem Trees.spelled_pieces : (ts : List Tree) → Trees.arePlain ts = true → ∀ space,
    spelled (Trees.pieces ts space) =
      (spaced (Trees.words ts)).toList ++ if space && !(Trees.words ts).isEmpty then [' '] else []
  | [], _, space => by
    rw [Trees.words, List.isEmpty_nil, Bool.not_true, Bool.and_false]
    rfl
  | t :: ts, plain, space => by
    obtain ⟨first, -, more⟩ := arePlain_cons.mp plain
    obtain ⟨w, words, joint⟩ := Tree.words_of_isPlain first
    rw [Trees.pieces, spelled_append, Tree.spelled_pieces t first, Trees.spelled_pieces ts more, Trees.words, words]
    cases ts with
    | nil => simp [Trees.words, spaced]
    | cons u ts =>
      obtain ⟨v, words', -⟩ := Tree.words_of_isPlain (arePlain_cons.mp more).1
      rw [Trees.words, words', ← joint]
      cases joined : w.joint <;> simp [spaced, joined]
end

def Atom.isComma (a : Atom) : Bool := a.chars == [',']

def firstChar? (ps : List Piece) : Option Char := ps.head?.bind fun p => p.1.chars.head?

/-- A space stands after the piece: one that was there stays between two words, and a comma has one. -/
def Piece.spaced (p : Piece) (rest : List Piece) : Bool :=
  p.1.isComma || p.2 && p.1.chars.getLast?.any (!isGlue ·) && (firstChar? rest).any (!isGlue ·)

def compact : List Piece → List Char
  | [] => []
  | p :: rest => p.1.chars ++ ((if p.spaced rest then [' '] else []) ++ compact rest)

/-- The text is kept where it stands alone, and holds no comma beside another character. -/
structure Atom.Kept (a : Atom) : Prop where
  nonempty : a.chars ≠ []
  tight : tighten none a.chars = a.chars
  commas : a.isComma = true ∨ ',' ∉ a.chars

theorem length_tighten_le (before : Option Char) (s : List Char) : (tighten before s).length ≤ s.length := by
  fun_induction tighten before s with
  | case1 => exact Nat.le_refl 0
  | case2 before c r _ ih => exact Nat.le_succ_of_le ih
  | case3 before c r _ ih => exact Nat.succ_le_succ ih

theorem tighten_of_tight {before : Option Char} {x : List Char} (tight : tighten before x = x) (y : List Char) :
    tighten before (x ++ y) = x ++ tighten (x.getLast?.or before) y := by
  induction x generalizing before with
  | nil => rfl
  | cons c x ih =>
    have kept : ¬(c == ' ' && (before.all isGlue || x.head?.all isGlue)) = true := by
      intro dropped
      rw [tighten, if_pos dropped] at tight
      have short := length_tighten_le before x
      rw [tight, List.length_cons] at short
      omega
    rw [tighten, if_neg kept] at tight
    have kept' : ¬(c == ' ' && (before.all isGlue || (x ++ y).head?.all isGlue)) = true := by
      cases x with
      | nil =>
        intro dropped
        refine kept ?_
        rw [(Bool.and_eq_true_iff.mp dropped).1]
        exact Bool.or_true _
      | cons d x => exact kept
    rw [List.cons_append, tighten, if_neg kept', ih (List.cons.inj tight).2, List.getLast?_cons]
    cases x.getLast? <;> rfl

/-- The first character is not a space, so what stands before does not matter. -/
theorem tighten_any {x : List Char} (tight : tighten none x = x) (before : Option Char) : tighten before x = x := by
  cases x with
  | nil => rfl
  | cons c x =>
    have visible : (c == ' ') = false := by
      rw [Bool.eq_false_iff]
      intro space
      have dropped : (c == ' ' && ((none : Option Char).all isGlue || x.head?.all isGlue)) = true := by
        rw [space]
        rfl
      rw [tighten, if_pos dropped] at tight
      have short := length_tighten_le none x
      rw [tight, List.length_cons] at short
      omega
    rw [tighten, visible, Bool.false_and, if_neg Bool.false_ne_true] at tight ⊢
    exact tight

theorem head?_spelled {ps : List Piece} (kept : ∀ p ∈ ps, p.1.Kept) : (spelled ps).head? = firstChar? ps := by
  cases ps with
  | nil => rfl
  | cons p ps =>
    obtain ⟨c, x, same⟩ := List.exists_cons_of_ne_nil (kept p List.mem_cons_self).nonempty
    rw [spelled_cons, Piece.chars, firstChar?, List.head?_cons, Option.bind_some, same]
    rfl

theorem tighten_space {last : Option Char} {s : List Char} : tighten last (' ' :: s) =
    if last.any (!isGlue ·) && s.head?.any (!isGlue ·) then ' ' :: tighten (some ' ') s else tighten last s := by
  have not_all (o : Option Char) : o.all isGlue = !o.any (!isGlue ·) := by
    cases o with
    | none => rfl
    | some c => exact (Bool.not_not (isGlue c)).symm
  rw [tighten, not_all, not_all]
  cases last.any (!isGlue ·) <;> cases s.head?.any (!isGlue ·) <;> rfl

theorem spaceCommas_tighten (before : Option Char) {ps : List Piece} (kept : ∀ p ∈ ps, p.1.Kept) :
    spaceCommas (tighten before (spelled ps)) = compact ps := by
  induction ps generalizing before with
  | nil => rfl
  | cons p ps ih =>
    have atom := kept p List.mem_cons_self
    have later (before : Option Char) := ih before fun q mem => kept q (List.mem_cons_of_mem _ mem)
    have first := head?_spelled fun q mem => kept q (List.mem_cons_of_mem _ mem)
    have last : p.1.chars.getLast?.or before = p.1.chars.getLast? := by
      obtain ⟨c, x, same⟩ := List.exists_cons_of_ne_nil atom.nonempty
      rw [same, List.getLast?_cons]
      rfl
    have front : spaceCommas p.1.chars = p.1.chars ++ if p.1.isComma then [' '] else [] := by
      rcases atom.commas with comma | none
      · rw [if_pos comma, beq_iff_eq.mp comma]
        rfl
      · have noComma : p.1.isComma = false := by
          rw [Bool.eq_false_iff]
          intro comma
          rw [beq_iff_eq.mp comma] at none
          exact none List.mem_cons_self
        rw [noComma, Naming.spaceCommas_of_not_mem none]
        exact (List.append_nil _).symm
    have tail : spaceCommas (tighten p.1.chars.getLast? ((if p.2 then [' '] else []) ++ spelled ps)) =
        (if p.2 && p.1.chars.getLast?.any (!isGlue ·) && (firstChar? ps).any (!isGlue ·) then [' '] else []) ++
          compact ps := by
      cases p.2 with
      | false => exact later _
      | true =>
        change spaceCommas (tighten p.1.chars.getLast? (' ' :: spelled ps)) = _
        rw [tighten_space, first, Bool.true_and]
        split
        · exact congrArg (' ' :: ·) (later _)
        · exact later _
    rw [spelled_cons, Piece.chars, List.append_assoc, tighten_of_tight (tighten_any atom.tight before), last,
      Naming.spaceCommas_append, front, tail, compact, Piece.spaced, List.append_assoc]
    cases comma : p.1.isComma with
    | false => rfl
    | true =>
      have glue : p.1.chars.getLast?.any (!isGlue ·) = false := by
        rw [beq_iff_eq.mp comma]
        rfl
      rw [glue, Bool.and_false, Bool.false_and]
      rfl

/-- What is known of a piece in front of others. -/
inductive Piece.Fits (rest : List Piece) : Piece → Prop
  | sign (c : Char) (joint space : Bool) (isSign : c ∈ punctuation) (quote : c ≠ '\'')
      (noComment : c = '/' → space = true ∨ firstChar? rest ≠ some '/' ∧ firstChar? rest ≠ some '*') :
      Piece.Fits rest (.token (.punct (String.singleton c) joint), space)
  | word (t : Token) (space : Bool) (isWord : Lexer.isSign t = false) (plain : t.isPlain = true)
      (ends : space = true ∨ ∀ d ∈ firstChar? rest, endsToken d = true) : Piece.Fits rest (.token t, space)
  | opening (d : Delim) (space : Bool) : Piece.Fits rest (.opening d, space)
  | closing (d : Delim) (space : Bool) : Piece.Fits rest (.closing d, space)

def Fit : List Piece → Prop
  | [] => True
  | p :: rest => p.Fits rest ∧ Fit rest

/-- What `isPlain` says of a token that is no sign. -/
structure Token.Plain (t : Token) : Prop where
  solid : Solid t t.chars
  tight : tighten none t.chars = t.chars
  noComma : ',' ∉ t.chars
  noGlue : t.chars.getLast?.all (!isGlue ·) = true

theorem Token.plain_of_isPlain {t : Token} (word : Lexer.isSign t = false) (plain : t.isPlain = true) : t.Plain := by
  have whole : (decide (Solid t t.chars) && tighten none t.chars == t.chars && !t.chars.contains ',' &&
      t.chars.getLast?.all (!isGlue ·)) = true := by
    cases t with
    | punct text joint => cases word
    | _ => exact plain
  simp only [Bool.and_eq_true, decide_eq_true_eq, beq_iff_eq, Bool.not_eq_true'] at whole
  obtain ⟨⟨⟨solid, tight⟩, noComma⟩, noGlue⟩ := whole
  refine ⟨solid, tight, fun mem => ?_, noGlue⟩
  rw [List.contains_iff_mem.mpr mem] at noComma
  cases noComma

theorem Token.Plain.nonempty {t : Token} (plain : t.Plain) : t.chars ≠ [] := by
  intro empty
  have alone := plain.solid.alone
  rw [empty] at alone
  cases alone

theorem chars_sign (c : Char) (joint : Bool) : (Atom.token (.punct (String.singleton c) joint)).chars = [c] :=
  String.toList_singleton c

theorem Atom.kept_of_char {a : Atom} {c : Char} (chars : a.chars = [c]) (visible : c ≠ ' ') : a.Kept := by
  constructor
  · rw [chars]
    exact List.cons_ne_nil _ _
  · rw [chars, tighten, beq_eq_false_iff_ne.mpr visible]
    rfl
  · rw [Atom.isComma, chars]
    by_cases comma : c = ','
    · exact .inl (by rw [comma]; rfl)
    · exact .inr fun mem => comma (List.mem_singleton.mp mem).symm

theorem Piece.Fits.kept {rest : List Piece} {p : Piece} (fits : p.Fits rest) : p.1.Kept := by
  cases fits with
  | sign c joint space isSign quote _ =>
    have visible : (punctuation.all fun c => c != ' ') = true := by decide
    exact Atom.kept_of_char (chars_sign c joint) (bne_iff_ne.mp (List.all_eq_true.mp visible c isSign))
  | word t space isWord plain _ =>
    have plain := Token.plain_of_isPlain isWord plain
    exact ⟨plain.nonempty, plain.tight, .inr plain.noComma⟩
  | opening d space => exact Atom.kept_of_char (c := d.left) rfl (by cases d <;> decide)
  | closing d space => exact Atom.kept_of_char (c := d.right) rfl (by cases d <;> decide)

theorem kept_of_fit {ps : List Piece} (fit : Fit ps) : ∀ p ∈ ps, p.1.Kept := by
  induction ps with
  | nil => exact fun p mem => by cases mem
  | cons p ps ih => exact List.forall_mem_cons.mpr ⟨fit.1.kept, ih fit.2⟩

theorem head?_compact {ps : List Piece} (fit : Fit ps) : (compact ps).head? = firstChar? ps := by
  cases ps with
  | nil => rfl
  | cons p ps =>
    obtain ⟨c, x, same⟩ := List.exists_cons_of_ne_nil fit.1.kept.nonempty
    rw [compact, firstChar?, List.head?_cons, Option.bind_some, same]
    rfl

def Piece.following (p : Piece) (rest : List Piece) : List Char :=
  (if p.spaced rest then [' '] else []) ++ compact rest

theorem isGlue_of_not_spaced {p : Piece} {rest : List Piece} (space : p.2 = true)
    (last : p.1.chars.getLast?.any (!isGlue ·) = true) (dropped : p.spaced rest = false) :
    ∀ d ∈ firstChar? rest, isGlue d = true := by
  intro d found
  obtain ⟨-, dropped⟩ := Bool.or_eq_false_iff.mp dropped
  rw [space, last, Bool.true_and, Bool.true_and, found, Option.any_some, Bool.not_eq_false'] at dropped
  exact dropped

theorem startsComment_slash {s : List Char} (slash : s.head? ≠ some '/') (star : s.head? ≠ some '*') :
    startsComment ('/' :: s) = false := by
  cases s with
  | nil => rfl
  | cons c s =>
    have line : ('/' == c) = false := beq_eq_false_iff_ne.mpr fun same => slash (congrArg some same.symm)
    have block : ('*' == c) = false := beq_eq_false_iff_ne.mpr fun same => star (congrArg some same.symm)
    change (('/' == '/' && ('/' == c && true)) || ('/' == '/' && ('*' == c && true))) = false
    rw [line, block]
    rfl

theorem startsComment_compact {ps : List Piece} (fit : Fit ps) : startsComment (compact ps) = false := by
  cases ps with
  | nil => rfl
  | cons p rest =>
    change startsComment (p.1.chars ++ p.following rest) = false
    obtain ⟨fits, fit⟩ := fit
    cases fits with
    | sign c joint space isSign quote noComment =>
      rw [chars_sign, List.singleton_append]
      by_cases slash : c = '/'
      · subst slash
        have head {d : Char} (blank : d ≠ ' ') (glue : isGlue d = false) (alone : space = true ∨ firstChar? rest ≠ some d) :
            (Piece.following (.token (.punct (String.singleton '/') joint), space) rest).head? ≠ some d := by
          unfold Piece.following
          cases spaced : Piece.spaced (.token (.punct (String.singleton '/') joint), space) rest with
          | true => exact fun same => blank (Option.some.inj same).symm
          | false =>
            change (compact rest).head? ≠ some d
            rw [head?_compact fit]
            rcases alone with space | alone
            · intro found
              have last : (Atom.token (.punct (String.singleton '/') joint)).chars.getLast?.any (!isGlue ·) = true := by
                rw [chars_sign]
                rfl
              rw [isGlue_of_not_spaced space last spaced d found] at glue
              cases glue
            · exact alone
        exact startsComment_slash (head (by decide) (by decide) ((noComment rfl).imp_right And.left))
          (head (by decide) (by decide) ((noComment rfl).imp_right And.right))
      · exact Lexer.startsComment_cons slash _
    | word t space isWord plain _ =>
      have plain := Token.plain_of_isPlain isWord plain
      obtain ⟨c, x, same⟩ := List.exists_cons_of_ne_nil plain.nonempty
      have solid := plain.solid
      rw [same] at solid
      change startsComment (t.chars ++ _) = false
      rw [same, List.cons_append]
      refine Lexer.startsComment_cons ?_ _
      rintro rfl
      rcases Lexer.begins_of_solid solid with other | other | ⟨other, -⟩ <;> cases other
    | opening d space => cases d <;> exact Lexer.startsComment_cons (by decide) _
    | closing d space => cases d <;> exact Lexer.startsComment_cons (by decide) _

theorem ends_following {t : Token} {space : Bool} {rest : List Piece} (plain : t.Plain) (fit : Fit rest)
    (ends : space = true ∨ ∀ d ∈ firstChar? rest, endsToken d = true) :
    Ends (Piece.following (.token t, space) rest) := by
  unfold Piece.following
  cases spaced : Piece.spaced (.token t, space) rest with
  | true =>
    intro d found
    obtain rfl := Option.some.inj found
    rfl
  | false =>
    intro d found
    change d ∈ (compact rest).head? at found
    rw [head?_compact fit] at found
    rcases ends with spacing | ends
    · have last : (Atom.token t).chars.getLast?.any (!isGlue ·) = true := by
        change t.chars.getLast?.any (!isGlue ·) = true
        have noGlue := plain.noGlue
        rw [List.getLast?_eq_some_getLast plain.nonempty] at noGlue ⊢
        exact noGlue
      have glue : isGlue d = true := isGlue_of_not_spaced (p := (.token t, space)) spacing last spaced d found
      rw [endsToken, glue, Bool.or_true]
    · exact ends d found

/-- The lexeme of a piece in front of a text. -/
def Atom.lexeme (rest : List Char) : Atom → Lexeme
  | .token (.punct text _) => .trees [.leaf (.punct text (isPunct rest))]
  | .token t => .trees [.leaf t]
  | .opening d => .opening d
  | .closing d => .closing d

/-- The lexemes of the compact text. -/
def readings : List Piece → List Lexeme
  | [] => []
  | p :: rest => p.1.lexeme (p.following rest) :: ((if p.spaced rest then [.trees []] else []) ++ readings rest)

theorem lexeme?_compact {p : Piece} {rest : List Piece} (fit : Fit (p :: rest)) :
    lexeme? (p.1.chars ++ p.following rest) = some (p.1.lexeme (p.following rest), p.1.chars.length) := by
  have noComment := startsComment_compact fit
  obtain ⟨fits, fit⟩ := fit
  cases fits with
  | sign c joint space isSign quote _ =>
    change startsComment ((Atom.token (.punct (String.singleton c) joint)).chars ++ Piece.following _ rest) = false
      at noComment
    rw [chars_sign] at noComment ⊢
    exact Lexer.lexeme?_sign isSign quote noComment
  | word t space isWord plain ends =>
    have plain := Token.plain_of_isPlain isWord plain
    have read := Lexer.lexeme?_of_ends (ends_following plain fit ends) plain.solid
    cases t with
    | punct text joint => cases isWord
    | _ => exact read
  | opening d space => cases d <;> rfl
  | closing d space => cases d <;> rfl

theorem lexemes_compact {ps : List Piece} (fit : Fit ps) :
    lexemes (compact ps).length (compact ps) = some (readings ps) := by
  induction ps with
  | nil => rfl
  | cons p ps ih =>
    change lexemes (p.1.chars ++ p.following ps).length (p.1.chars ++ p.following ps) = _
    rw [Lexer.lexemes_cons fit.1.kept.nonempty (lexeme?_compact fit), readings, Piece.following]
    cases p.spaced ps with
    | false =>
      change (lexemes (compact ps).length (compact ps)).map _ = _
      rw [ih fit.2]
      rfl
    | true =>
      change (lexemes (' ' :: compact ps).length (' ' :: compact ps)).map _ = _
      rw [Lexer.lexemes_space, ih fit.2]
      rfl

/-- Whether a sign touches the sign that follows it in compact text: no space is kept between them. -/
def touches (sign : String) (joint : Bool) : Trees → Bool
  | .leaf t :: _ => sign != "," && t.chars.head?.any fun c =>
      punctuation.contains c && (joint || sign.toList.any isGlue || isGlue c)
  | _ => false

mutual
/-- The tree in front of others, its signs touching as they do in compact text. -/
def Tree.touched (rest : Trees) : Tree → Tree
  | .leaf (.punct sign joint) => .leaf (.punct sign (touches sign joint rest))
  | .group d body => .group d (Trees.touched body)
  | t => t

def Trees.touched : List Tree → Trees
  | [] => []
  | t :: ts => t.touched ts :: Trees.touched ts
end

/-- What may follow the last piece of trees: nothing, or a bracket that closes them. -/
structure Closes (space : Bool) (rest : List Piece) : Prop where
  fit : Fit rest
  ends : space = true ∨ ∀ d ∈ firstChar? rest, endsToken d = true
  alone : (firstChar? rest).any punctuation.contains = false

theorem closes_nil : Closes false [] := by
  refine ⟨trivial, .inr fun _ found => ?_, rfl⟩
  cases found

theorem closes_closing (d : Delim) (space : Bool) {rest : List Piece} (fit : Fit rest) :
    Closes (d == .brace) ((.closing d, space) :: rest) := by
  refine ⟨⟨.closing d space, fit⟩, ?_, ?_⟩
  · cases d with
    | paren => exact .inr fun _ found => by cases found; rfl
    | bracket => exact .inr fun _ found => by cases found; rfl
    | brace => exact .inl rfl
  · cases d <;> rfl

theorem head_of_isPlain {t : Token} {c : Char} (plain : t.isPlain = true) (head : t.chars.head? = some c) :
    c ∈ punctuation ∧ (Tree.leaf t).isOp (String.singleton c) = true ∨ c = '"' ∨ c = '\'' ∨
      Lexer.isWordy c = true ∧ Text.isIdentContinue c = true := by
  cases isSign : Lexer.isSign t with
  | true =>
    cases t with
    | punct text joint =>
      obtain ⟨d, mem, same⟩ := List.any_eq_true.mp plain
      obtain rfl := beq_iff_eq.mp same
      change (String.singleton d).toList.head? = some c at head
      rw [String.toList_singleton] at head
      obtain rfl := Option.some.inj head
      exact .inl ⟨(List.mem_filter.mp mem).1, beq_self_eq_true _⟩
    | _ => cases isSign
  | false =>
    have solid := (Token.plain_of_isPlain isSign plain).solid
    obtain ⟨x, same⟩ : ∃ x, t.chars = c :: x := List.head?_eq_some_iff.mp head
    rw [same] at solid
    exact .inr (Lexer.begins_of_solid solid)

theorem isOp_of_head {t : Token} {c : Char} (plain : t.isPlain = true) (head : t.chars.head? = some c)
    (sign : c ∈ punctuation) (quote : c ≠ '\'') : (Tree.leaf t).isOp (String.singleton c) = true := by
  rcases head_of_isPlain plain head with ⟨-, isOp⟩ | rfl | rfl | ⟨wordy, -⟩
  · exact isOp
  · exact absurd sign (by decide)
  · exact (quote rfl).elim
  · obtain ⟨-, -, other, -⟩ := Lexer.begins_nothing_else wordy
    rw [List.contains_iff_mem.mpr sign] at other
    cases other

mutual
theorem Tree.fit_pieces : (t : Tree) → t.isPlain = true → ∀ (space : Bool) {rest : List Piece}, Fit rest →
    (space = true ∨ (∀ d ∈ firstChar? rest, endsToken d = true) ∨ t.joint = true ∧
      (t.isOp "/" = true → firstChar? rest ≠ some '/' ∧ firstChar? rest ≠ some '*')) →
    Fit (t.pieces space ++ rest)
  | .leaf t, plain, space, rest, fit, follows => by
    refine ⟨?_, fit⟩
    cases isSign : Lexer.isSign t with
    | true =>
      cases t with
      | punct text joint =>
        obtain ⟨c, mem, same⟩ := List.any_eq_true.mp plain
        obtain rfl := beq_iff_eq.mp same
        obtain ⟨sign, quote⟩ := List.mem_filter.mp mem
        refine .sign c joint space sign (bne_iff_ne.mp quote) ?_
        rintro rfl
        rcases follows with spacing | ends | ⟨-, noComment⟩
        · exact .inl spacing
        · have other {d : Char} (odd : endsToken d = false) : firstChar? rest ≠ some d := by
            intro found
            rw [ends d found] at odd
            cases odd
          exact .inr ⟨other (by decide), other (by decide)⟩
        · exact .inr (noComment rfl)
      | _ => cases isSign
    | false =>
      refine .word t space isSign plain ?_
      rcases follows with spacing | ends | ⟨joint, -⟩
      · exact .inl spacing
      · exact .inr ends
      · cases t with
        | punct text joint => cases isSign
        | _ => cases joint
  | .group d body, plain, space, rest, fit, _ => by
    have closes := closes_closing d space fit
    rw [Tree.pieces, List.cons_append, List.append_assoc]
    exact ⟨.opening d _, Trees.fit_pieces body plain _ closes⟩
  | .node _ _, plain, _, _, _, _ => by cases plain

theorem Trees.fit_pieces : (ts : List Tree) → Trees.arePlain ts = true → ∀ (space : Bool) {rest : List Piece},
    Closes space rest → Fit (Trees.pieces ts space ++ rest)
  | [], _, _, _, closes => closes.fit
  | t :: ts, plain, space, rest, closes => by
    obtain ⟨first, noComment, more⟩ := arePlain_cons.mp plain
    have later := Trees.fit_pieces ts more space closes
    rw [Trees.pieces, List.append_assoc]
    refine Tree.fit_pieces t first _ later ?_
    cases ts with
    | nil => exact closes.ends.imp_right .inl
    | cons u ts =>
      -- a space follows unless the token is joint, and then it is a sign
      cases joint : t.joint with
      | false => exact .inl rfl
      | true =>
        refine .inr (.inr ⟨rfl, fun slash => ?_⟩)
        rw [opensComment, joint, slash, Bool.true_and, Bool.true_and, List.head?_cons, Option.any_some] at noComment
        obtain ⟨noSlash, noStar⟩ := Bool.or_eq_false_iff.mp noComment
        have plain := (arePlain_cons.mp more).1
        cases u with
        | leaf token =>
          refine ⟨fun head => ?_, fun head => ?_⟩
          · exact Bool.eq_false_iff.mp noSlash (isOp_of_head plain head (by decide) (by decide))
          · exact Bool.eq_false_iff.mp noStar (isOp_of_head plain head (by decide) (by decide))
        | group d body =>
          change some d.left ≠ some '/' ∧ some d.left ≠ some '*'
          cases d <;> decide
        | node k parts => cases plain
end

theorem isPunct_following {p : Piece} {rest : List Piece} (fit : Fit rest) :
    isPunct (p.following rest) = (!p.spaced rest && (firstChar? rest).any punctuation.contains) := by
  unfold Piece.following
  cases p.spaced rest with
  | true => rfl
  | false =>
    change isPunct (compact rest) = (firstChar? rest).any punctuation.contains
    rw [isPunct, startsComment_compact fit, head?_compact fit]
    rfl

theorem isPunct_sign {sign : String} {joint : Bool} {ts : List Tree} {space : Bool} {rest : List Piece}
    (plain : (Token.punct sign joint).isPlain = true) (more : Trees.arePlain ts = true) (closes : Closes space rest) :
    isPunct (Piece.following (.token (.punct sign joint), if ts.isEmpty then space else !joint)
      (Trees.pieces ts space ++ rest)) = touches sign joint ts := by
  rw [isPunct_following (Trees.fit_pieces ts more space closes)]
  obtain ⟨c, -, same⟩ := List.any_eq_true.mp plain
  obtain rfl := beq_iff_eq.mp same
  cases ts with
  | nil =>
    change (_ && (firstChar? rest).any punctuation.contains) = false
    rw [closes.alone, Bool.and_false]
  | cons u ts =>
    cases u with
    | leaf v =>
      have comma : (Atom.token (.punct (String.singleton c) joint)).isComma = !(String.singleton c != ",") := by
        rw [Atom.isComma, chars_sign, Bool.eq_iff_iff, beq_iff_eq, Bool.not_eq_true', bne_eq_false_iff_eq]
        exact ⟨fun same => by rw [(List.cons.inj same).1]; rfl,
          fun same => by rw [← String.toList_singleton, same]; rfl⟩
      change (!Piece.spaced _ _ && v.chars.head?.any punctuation.contains) = _
      rw [Piece.spaced, comma, chars_sign, touches, String.toList_singleton]
      change (!(_ || !joint && !isGlue c && v.chars.head?.any (!isGlue ·)) && _) = (_ && v.chars.head?.any _)
      cases v.chars.head? with
      | none => simp only [Option.any_none, Bool.and_false]
      | some d =>
        simp only [Option.any_some, List.any_cons, List.any_nil, Bool.or_false]
        cases String.singleton c != "," <;> cases joint <;> cases isGlue c <;> cases isGlue d <;>
          cases punctuation.contains d <;> rfl
    | group d body =>
      change (_ && punctuation.contains d.left) = false
      cases d <;> exact Bool.and_false _
    | node k parts => cases (arePlain_cons.mp more).1

theorem nest_gap (stack : List Lexer.Open) (acc : Trees) (gap : Bool) (ls : List Lexeme) :
    nest stack acc ((if gap then [.trees []] else []) ++ ls) = nest stack acc ls := by
  cases gap <;> rfl

mutual
theorem Tree.nest_pieces : (t : Tree) → t.isPlain = true → ∀ (ts : Trees) (space : Bool) {rest : List Piece}, Fit rest →
    (∀ sign joint, t = .leaf (.punct sign joint) →
      isPunct (Piece.following (.token (.punct sign joint), space) rest) = touches sign joint ts) →
    ∀ stack acc, nest stack acc (readings (t.pieces space ++ rest)) =
      nest stack (t.touched ts :: acc) (readings rest)
  | .leaf t, _, ts, space, rest, _, flag, stack, acc => by
    have one (u : Token) (same : (Atom.token t).lexeme (Piece.following (.token t, space) rest) = .trees [.leaf u]) :
        nest stack acc (readings ((Tree.leaf t).pieces space ++ rest)) = nest stack (.leaf u :: acc) (readings rest) := by
      rw [Tree.pieces, List.singleton_append, readings, same, nest, nest_gap]
      rfl
    cases t with
    | punct sign joint => 
      have same := flag sign joint rfl
      exact one (.punct sign (touches sign joint ts)) (by rw [Atom.lexeme, same])
    | _ => exact one _ rfl
  | .group d body, plain, ts, space, rest, fit, _, stack, acc => by
    have inside := Trees.nest_pieces body plain _ (closes_closing d space fit) ((d, acc) :: stack) []
    rw [Tree.pieces, List.cons_append, List.append_assoc, readings, Atom.lexeme, nest, nest_gap]
    rw [List.singleton_append, inside, readings, Atom.lexeme, nest, if_pos rfl, nest_gap, List.append_nil,
      List.reverse_reverse]
    rfl
  | .node _ _, plain, _, _, _, _, _, _, _ => by cases plain

theorem Trees.nest_pieces : (ts : List Tree) → Trees.arePlain ts = true → ∀ (space : Bool) {rest : List Piece},
    Closes space rest → ∀ stack acc, nest stack acc (readings (Trees.pieces ts space ++ rest)) =
      nest stack ((Trees.touched ts).reverse ++ acc) (readings rest)
  | [], _, _, _, _, _, _ => rfl
  | t :: ts, plain, space, rest, closes, stack, acc => by
    obtain ⟨first, -, more⟩ := arePlain_cons.mp plain
    have later := Trees.fit_pieces ts more space closes
    have flag : ∀ sign joint, t = .leaf (.punct sign joint) → isPunct (Piece.following
        (.token (.punct sign joint), if ts.isEmpty then space else !t.joint) (Trees.pieces ts space ++ rest)) =
          touches sign joint ts := by
      rintro sign joint rfl
      exact isPunct_sign first more closes
    rw [Trees.pieces, List.append_assoc, Tree.nest_pieces t first ts _ later flag,
      Trees.nest_pieces ts more space closes, Trees.touched, List.reverse_cons, List.append_assoc]
    rfl
end

theorem lex_renderType {t : Tree} (plain : Trees.arePlain t.written = true) :
    lex (Naming.renderType t) = some (Trees.touched t.written) := by
  have fit : Fit (Trees.pieces t.written false) := by
    have fit := Trees.fit_pieces t.written plain false closes_nil
    rwa [List.append_nil] at fit
  have text : (Naming.renderType t).toList = compact (Trees.pieces t.written false) := by
    have spelling := Trees.spelled_pieces t.written plain false
    rw [Bool.false_and, if_neg Bool.false_ne_true, List.append_nil] at spelling
    rw [Naming.renderType, String.toList_ofList, ← Trees.text_written t, Trees.text, ← spelling,
      spaceCommas_tighten none (kept_of_fit fit)]
  have mark : (Naming.renderType t).toList.head? ≠ some '\ufeff' := by
    rw [text, head?_compact fit]
    cases written : t.written with
    | nil => exact fun found => by cases found
    | cons u ts =>
      rw [written] at plain
      have first := (arePlain_cons.mp plain).1
      cases u with
      | leaf v =>
        intro head
        rcases head_of_isPlain first head with ⟨sign, -⟩ | other | other | ⟨-, continues⟩
        · exact absurd sign (by decide)
        · cases other
        · cases other
        · exact absurd continues (by decide +kernel)
      | group d body => cases d <;> exact fun found => by cases found
      | node k parts => cases first
  have nested := Trees.nest_pieces t.written plain false closes_nil [] []
  rw [List.append_nil, List.append_nil] at nested
  rw [Lexer.lex_eq mark, text, lexemes_compact fit, Option.bind_some, nested]
  exact congrArg some (List.reverse_reverse _)

end Retype.Code
